import TemporalDB.Proofs.WorkDirectory.Build

/-!
# What becomes of a text

What compiling the text of a query does depends on its own unit, on what the text is planned to, and
on whether temporary files can be made for it. Compiling another text changes none of these.
-/

namespace TemporalDB

open FileTree

def FileTree.hasPlace (t : FileTree) (p : Path) : Bool := (t.place p).toOption.isSome

/-- What becomes of a text that is compiled. -/
inductive Fate where
  /-- Its unit is there, and nothing is done. -/
  | kept
  /-- It is not planned, and nothing is done. -/
  | unplanned
  /-- Its listing cannot be stored. -/
  | unstored
  /-- Its listing is stored, and no unit can be built from it. -/
  | broken (listing : String)
  /-- Its listing is stored, and its unit. -/
  | built (listing : String) (u : CompiledUnit)

namespace Fate

def status : Fate → Option BuildStatus
  | kept => some .cached
  | built _ _ => some .compiled
  | _ => none

def runs : Fate → Nat
  | broken _ | built _ _ => 1
  | _ => 0

/-- What becomes of the text when it is compiled once more. -/
def next : Fate → Fate
  | built _ _ => kept
  | fate => fate

/-- Whether the work directory is asked for. -/
def isActive : Fate → Bool
  | kept | unplanned => false
  | _ => true

/-- The work directory after the text was compiled. -/
def store (w : List String) (text : String) (files : FileTree) : Fate → FileTree
  | broken listing => files.assign (w ++ [listingName text]) (some listing.toUTF8)
  | built listing u =>
    (files.assign (w ++ [listingName text]) (some listing.toUTF8)).assign (w ++ [unitName text])
      (some u.artifact.toUTF8)
  | _ => files

end Fate

variable {config : Configuration} {schema : Schema} {w : List String} {files files' : FileTree}
  {text other listing name : String} {texts : List String} {content : Option ByteArray}
  {u : CompiledUnit} {c : BuildCache}

theorem FileTree.hasPlace_iff {p : Path} :
    files.hasPlace p = true ↔ ∃ place, files.place p = .ok place := by
  unfold hasPlace
  cases files.place p with
  | error e => simp [Except.toOption]
  | ok place => simp [Except.toOption]

/-! ## Two texts -/

namespace Fate

variable {f f' : Fate}

end Fate

/-! ## How a text fares -/

variable [Tags]

/-- What becomes of a text that is compiled for a schema, with a work directory at a place. -/
def fate (config : Configuration) (schema : Schema) (w : List String) (files : FileTree)
    (text : String) : Fate :=
  if (files.node? (w ++ [unitName text])).isSome then .kept
  else match planned text schema with
  | .error _ => .unplanned
  | .ok listing =>
    if files.hasPlace (files.temporary (.ofParts config.workDir.parts) (listingName text)) then
      match Assembly.assemble listing,
          files.hasPlace (files.temporary config.workDir (Fingerprint.of text).artifactName) with
      | .ok u, true => .built listing u
      | _, _ => .broken listing
    else .unstored

theorem fate_eq_kept_iff :
    fate config schema w files text = .kept ↔ files.node? (w ++ [unitName text]) ≠ none := by
  unfold fate
  cases files.node? (w ++ [unitName text]) with
  | some node => simp
  | none =>
      simp only [Option.isSome_none, Bool.false_eq_true, if_false, ne_eq, not_true_eq_false,
        iff_false]
      split
      · exact Fate.noConfusion
      · split
        · split <;> exact Fate.noConfusion
        · exact Fate.noConfusion

/-- What becomes of a text that is planned and has no unit. -/
theorem fate_of_planned (absent : files.node? (w ++ [unitName text]) = none)
    (hplanned : planned text schema = .ok listing) : fate config schema w files text =
      if files.hasPlace (files.temporary (.ofParts config.workDir.parts) (listingName text)) then
        match Assembly.assemble listing,
            files.hasPlace (files.temporary config.workDir (Fingerprint.of text).artifactName) with
        | .ok u, true => .built listing u
        | _, _ => .broken listing
      else .unstored := by
  unfold fate
  rw [absent, hplanned, Option.isSome_none, if_neg Bool.false_ne_true]

theorem fate_of_unplanned {e : QueryError} (absent : files.node? (w ++ [unitName text]) = none)
    (unplanned : planned text schema = .error e) :
    fate config schema w files text = .unplanned := by
  unfold fate
  rw [absent, unplanned, Option.isSome_none, if_neg Bool.false_ne_true]

theorem isActive_fate (absent : files.node? (w ++ [unitName text]) = none)
    (hplanned : planned text schema = .ok listing) :
    (fate config schema w files text).isActive = true := by
  rw [fate_of_planned absent hplanned]
  split
  · split <;> rfl
  · rfl

/-- **A text is built** if it has no unit, is planned to a listing that is assembled, and temporary
files can be made for both. -/
theorem fate_eq_built_iff : fate config schema w files text = .built listing u ↔
    files.node? (w ++ [unitName text]) = none ∧ planned text schema = .ok listing ∧
      Assembly.assemble listing = .ok u ∧
      Placeable config files (Fingerprint.of text).artifactName := by
  constructor
  · intro h
    have absent : files.node? (w ++ [unitName text]) = none := by
      by_contra there
      cases h.symm.trans (fate_eq_kept_iff.mpr there)
    refine ⟨absent, ?_⟩
    cases hplanned : planned text schema with
    | error e => cases h.symm.trans (fate_of_unplanned absent hplanned)
    | ok listing' =>
        rw [fate_of_planned absent hplanned] at h
        split at h
        · next stored =>
            split at h
            · next u' assembled built =>
                cases h
                exact ⟨rfl, assembled, hasPlace_iff.mp stored, hasPlace_iff.mp built⟩
            · cases h
        · cases h
  · rintro ⟨absent, hplanned, assembled, placeable⟩
    have stored := hasPlace_iff.mpr placeable.listing
    have built := hasPlace_iff.mpr placeable.unit
    rw [fate_of_planned absent hplanned, assembled, built]
    exact if_pos stored

/-- **A text fares by its own unit** and by the temporary files that can be made. -/
theorem fate_congr
    (unit : files'.node? (w ++ [unitName text]) = files.node? (w ++ [unitName text]))
    (room : ∀ p file, files'.hasPlace (files'.temporary p file) =
      files.hasPlace (files.temporary p file)) :
    fate config schema w files' text = fate config schema w files text := by
  unfold fate
  rw [unit, room, room]

/-! ## The work directory of some texts -/

/-- There is a work directory at a place, and no directory has the path of the listing or of the
unit of one of some texts. -/
structure Site (config : Configuration) (texts : List String) (w : List String)
    (files : FileTree) : Prop where
  room : config.HasRoom
  leads : files.Leads config.workDir w
  listing : ∀ text ∈ texts, files.node? (w ++ [listingName text]) ≠ some .directory
  unit : ∀ text ∈ texts, files.node? (w ++ [unitName text]) ≠ some .directory

namespace Site

omit [Tags] in
theorem createDirectories (site : Site config texts w files) :
    files.createDirectories config.workDir = .ok files :=
  createDirectories_of_hasRoom site.room site.leads

/-- **One file of the work directory changes.** What could be written can still be written. -/
theorem assign (site : Site config texts w files) (content : Option ByteArray)
    (free : files.node? (w ++ [name]) ≠ some .directory) (last : name.toList.getLast? ≠ some 'p') :
    Site config texts w (files.assign (w ++ [name]) content) ∧
      ∀ p file, (files.assign (w ++ [name]) content).hasPlace
          ((files.assign (w ++ [name]) content).temporary p file) =
        files.hasPlace (files.temporary p file) := by
  have full : w ++ [name] ≠ [] := List.concat_ne_nil _ _
  have keeps := keeps_assign content full free
  have kept : (files.assign (w ++ [name]) content).Keeps files := keeps_of_assign full
  constructor
  · exact ⟨site.room, site.leads.mono keeps,
      fun text mem => mt (kept.directory _) (site.listing text mem),
      fun text mem => mt (kept.directory _) (site.unit text mem)⟩
  · intro p file
    have same := mem_names_assign_of_last content site.leads.directory last
    rw [Bool.eq_iff_iff, hasPlace_iff, hasPlace_iff]
    constructor
    · rintro ⟨place, hplace⟩
      exact exists_place_temporary kept (fun other ending => (same other ending).symm) hplace
    · rintro ⟨place, hplace⟩
      exact exists_place_temporary keeps same hplace

/-- **Compiling a text changes no file but its own**, and what could be written can still be
written. -/
theorem store (site : Site config texts w files) (mem : text ∈ texts) (fate : Fate) :
    Site config texts w (fate.store w text files) ∧
      (∀ p file, (fate.store w text files).hasPlace ((fate.store w text files).temporary p file) =
        files.hasPlace (files.temporary p file)) ∧
      ∀ other, other ≠ listingName text → other ≠ unitName text →
        (fate.store w text files).node? (w ++ [other]) = files.node? (w ++ [other]) := by
  have listed : ∀ listing : String, _ := fun listing =>
    site.assign (some listing.toUTF8) (site.listing text mem) getLast?_append_src
  cases fate with
  | kept | unplanned | unstored => exact ⟨site, fun _ _ => rfl, fun _ _ _ => rfl⟩
  | broken listing =>
      exact ⟨(listed listing).1, (listed listing).2, fun _ ne _ => node?_assign_of_name_ne ne⟩
  | built listing u =>
      obtain ⟨site', room⟩ := listed listing
      obtain ⟨site'', room'⟩ := site'.assign (some u.artifact.toUTF8) (site'.unit text mem)
        getLast?_append_unit
      refine ⟨site'', fun p file => (room' p file).trans (room p file), fun other ne ne' => ?_⟩
      exact (node?_assign_of_name_ne ne').trans (node?_assign_of_name_ne ne)

theorem fate_store_of_ne (site : Site config texts w files) (mem : text ∈ texts)
    (apart : unitName other ≠ unitName text) (f : Fate) :
    fate config schema w (f.store w text files) other = fate config schema w files other := by
  obtain ⟨-, room, elsewhere⟩ := site.store mem f
  exact fate_congr (elsewhere _ append_src_ne_append_unit.symm apart) room

theorem fate_store_self (site : Site config texts w files) (mem : text ∈ texts) :
    fate config schema w ((fate config schema w files text).store w text files) text =
      (fate config schema w files text).next := by
  obtain ⟨-, room, -⟩ := site.store mem (fate config schema w files text)
  cases h : fate config schema w files text with
  | kept | unplanned | unstored => exact h
  | broken listing =>
      rw [h] at room
      refine (fate_congr ?_ room).trans h
      exact node?_assign_of_name_ne
        (append_src_ne_append_unit : listingName text ≠ unitName text).symm
  | built listing u =>
      apply fate_eq_kept_iff.mpr
      unfold Fate.store
      rw [node?_assign_self]
      simp

end Site

/-! ## Builds -/

omit [Tags] in
theorem Site.discard_of_absent (site : Site config texts w files)
    (absent : files.node? (w ++ [unitName text]) = none) :
    files.discard (config.artifactPath (Fingerprint.of text).artifactName) = files := by
  rcases discard_cases files (config.artifactPath (Fingerprint.of text).artifactName) with
    same | ⟨place, bytes, hplace, hnode, -⟩
  · exact same
  · cases (site.room.place_unit site.leads).symm.trans hplace
    cases absent.symm.trans hnode

/-- Once its listing is stored, the unit of a text is built or not. -/
theorem compile_eq_fate (inProcess : c.compiler = .inProcess) (site : Site c.config texts w files)
    (mem : text ∈ texts) (absent : files.node? (w ++ [unitName text]) = none)
    (hplanned : planned text schema = .ok listing)
    (storable : ∃ place, files.place
      (files.temporary (.ofParts c.config.workDir.parts) (listingName text)) = .ok place) :
    ∃ result : Except BuildError BuildStatus,
      BuildCache.compile
          { c with files := files.assign (w ++ [listingName text]) (some listing.toUTF8) }
          (Fingerprint.of text).artifactName = (result, { c with
        files := (fate c.config schema w files text).store w text files
        builds := c.builds + (fate c.config schema w files text).runs }) ∧
      result.toOption = (fate c.config schema w files text).status := by
  obtain ⟨site', room⟩ := site.assign (some listing.toUTF8) (site.listing text mem)
    getLast?_append_src
  have stored := readText_eq_ok_iff.mpr ⟨_, site'.room.place_listing site'.leads, node?_assign_self⟩
  have unit : (files.assign (w ++ [listingName text]) (some listing.toUTF8)).place
      (c.config.artifactPath (Fingerprint.of text).artifactName) = .ok (w ++ [unitName text]) :=
    site'.room.place_unit site'.leads
  -- the listing has been stored, but under a name of its own
  have other : unitName text ≠ listingName text := append_src_ne_append_unit.symm
  have absent' : (files.assign (w ++ [listingName text]) (some listing.toUTF8)).node?
      (w ++ [unitName text]) = none := (node?_assign_of_name_ne other).trans absent
  rcases BuildCache.compile_cases_of_inProcess
      (c := { c with files := files.assign (w ++ [listingName text]) (some listing.toUTF8) })
      inProcess (Fingerprint.of text).artifactName with
    ⟨target, bytes, compiles, done⟩ | ⟨e, failed⟩
  · obtain ⟨listing', u, stored', assembled, artifact⟩ := compiles.assembles
    cases stored.symm.trans stored'
    cases unit.symm.trans compiles.place
    have writable := (room _ _).symm.trans (hasPlace_iff.mpr compiles.writable)
    have built : fate c.config schema w files text = .built listing u :=
      fate_eq_built_iff.mpr ⟨absent, hplanned, assembled, storable, hasPlace_iff.mp writable⟩
    rw [built, done, artifact]
    exact ⟨_, rfl, rfl⟩
  · have broken : fate c.config schema w files text = .broken listing := by
      rw [fate_of_planned absent hplanned, if_pos (hasPlace_iff.mpr storable)]
      split
      · next u assembled writable =>
          -- where fate has it built, the compilation would have succeeded
          have done := BuildCache.compile_eq_ok
            (c := { c with files := files.assign (w ++ [listingName text]) (some listing.toUTF8) })
            inProcess ⟨⟨listing, u, stored, assembled, rfl⟩,
              hasPlace_iff.mp ((room _ _).trans writable), unit, site'.unit text mem⟩
          cases failed.symm.trans done
      · rfl
    rw [failed, broken]
    dsimp only
    rw [site'.discard_of_absent absent']
    exact ⟨_, rfl, rfl⟩

/-- **A text that has no unit is built as its fate says.** -/
theorem compileStored_eq_fate (inProcess : c.compiler = .inProcess)
    (made : c.files.createDirectories c.config.workDir = .ok files)
    (site : Site c.config texts w files) (mem : text ∈ texts)
    (absent : files.node? (w ++ [unitName text]) = none)
    (hplanned : planned text schema = .ok listing) :
    ∃ result : Except BuildError BuildStatus,
      c.compileStored (some listing) (Fingerprint.of text).artifactName = (result, { c with
        files := (fate c.config schema w files text).store w text files
        builds := c.builds + (fate c.config schema w files text).runs }) ∧
      result.toOption = (fate c.config schema w files text).status := by
  have named := isFileName_listingName text
  unfold BuildCache.compileStored
  rw [createDirectories_eq_ok_iff.mp made, sourcePath_artifactName]
  dsimp only
  by_cases storable : ∃ place, files.place
      (files.temporary (.ofParts c.config.workDir.parts) (listingName text)) = .ok place
  · obtain ⟨place, hplace⟩ := storable
    rw [BuildCache.publish_eq_ok named hplace (site.room.place_listing site.leads)
      (site.listing text mem)]
    exact compile_eq_fate inProcess site mem absent hplanned ⟨place, hplace⟩
  · have unstored : fate c.config schema w files text = .unstored := by
      rw [fate_of_planned absent hplanned, if_neg (mt hasPlace_iff.mp storable)]
    rcases BuildCache.publish_cases listing.toUTF8 named
        (fun place hplace => absurd ⟨place, hplace⟩ storable) with
      ⟨place, _, hplace, -⟩ | ⟨e, failed⟩
    · exact absurd ⟨place, hplace⟩ storable
    · rw [failed, unstored]
      exact ⟨_, rfl, rfl⟩

/-- Nothing is built where the work directory is not there and cannot be made: there are no files
but what paving leaves. -/
theorem compileStored_of_siteless (listing text : String)
    (siteless : ∀ made w, c.files.createDirectories c.config.workDir = .ok made →
      ¬ made.Leads c.config.workDir w) :
    ∃ e, c.compileStored (some listing) (Fingerprint.of text).artifactName =
      (.error e, { c with files := (c.files.pave c.config.workDir).2 }) := by
  rcases pave_cases c.files c.config.workDir with ⟨made, makes, paves⟩ | ⟨e, left, -, paves⟩
  · have plain : '/' ∉ (Fingerprint.of text).artifactName.toList := plain_artifactName
    obtain ⟨e, failed⟩ := publish_of_absent listing plain fun w => siteless made w makes
    unfold BuildCache.compileStored
    rw [paves]
    dsimp only
    rw [failed]
    exact ⟨e, rfl⟩
  · rw [BuildCache.compileStored_of_unpaved paves, paves]
    exact ⟨_, rfl⟩

end TemporalDB
