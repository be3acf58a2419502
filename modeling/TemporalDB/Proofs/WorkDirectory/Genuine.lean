import TemporalDB.Proofs.BuildCache.Frame
import TemporalDB.Proofs.WorkDirectory

/-!
# Units and their listings

In a work directory that was empty and that only builds write to, each unit is that of the listing
beside it, and the listing of a query is one that the query was planned to. A build may leave a
listing without a unit, but no unit without its listing.
-/

namespace TemporalDB

open FileTree

variable {config : Configuration} {returned returned' : Schema → Prop}
  {name other base text : String} {source : Option String} {files files' before made : FileTree}
  {w place : List String} {c : BuildCache}

/-! ## Places of listings and units -/

theorem exists_of_place_source (h : files.place (config.sourcePath name) = .ok place) :
    ∃ w base, place = w ++ [base ++ ".src"] := by
  obtain ⟨q, base, named, -, path, -⟩ := config.exists_paths name
  rw [path] at h
  obtain ⟨-, -, w, -, rfl⟩ := (place_join_eq_ok_iff named).mp h
  exact ⟨w, base, rfl⟩

theorem exists_of_place_artifact (h : files.place (config.artifactPath name) = .ok place) :
    ∃ w base, place = w ++ [base ++ ".unit"] := by
  obtain ⟨q, base, -, named, -, path⟩ := config.exists_paths name
  rw [path] at h
  obtain ⟨-, -, w, -, rfl⟩ := (place_join_eq_ok_iff named).mp h
  exact ⟨w, base, rfl⟩

theorem place_source_of_artifact
    (h : files.place (config.artifactPath name) = .ok (w ++ [base ++ ".unit"])) :
    files.place (config.sourcePath name) = .ok (w ++ [base ++ ".src"]) := by
  obtain ⟨q, base', named_src, named_unit, source, artifact⟩ := config.exists_paths name
  rw [artifact] at h
  obtain ⟨legal, size, w', leads, same⟩ := (place_join_eq_ok_iff named_unit).mp h
  obtain ⟨rfl, last⟩ := List.append_singleton_inj.mp same
  obtain rfl := append_inj last
  have shorter : (base ++ ".src").utf8ByteSize ≤ (base ++ ".unit").utf8ByteSize := by
    simp only [String.utf8ByteSize_append]
    have endings : ".src".utf8ByteSize = 4 ∧ ".unit".utf8ByteSize = 5 := by decide
    omega
  have unbroken : '\x00' ∉ (base ++ ".src").toList := by
    have whole := (Path.mem_join named_unit.plain (by decide)).not.mp legal.unbroken
    rw [String.toList_append, List.mem_append] at whole ⊢
    exact not_or.mpr ⟨fun zero => whole (Or.inr (Or.inl zero)), by decide⟩
  rw [source]
  exact (place_join_eq_ok_iff named_src).mpr
    ⟨legal.join_of_le named_unit named_src unbroken shorter, Nat.le_trans shorter size, w, leads, rfl⟩

/-- The definition's listing is not where a query's is, unless they have one name. -/
def Configuration.Distinct (c : Configuration) : Prop :=
  ∀ (files : FileTree) (w : List String) (text : String), files.Leads c.workDir w →
    files.place (c.sourcePath c.definitionName) = .ok (w ++ [listingName text]) →
    (Fingerprint.of text).artifactName = c.definitionName

theorem Configuration.distinct_of_plain (plain : '/' ∉ config.definitionName.toList) :
    config.Distinct := by
  intro files w text _ h
  have named : IsFileName (config.definitionName ++ ".src") :=
    isFileName_append plain (by decide) (by decide)
  obtain ⟨-, -, w', -, same⟩ := (place_join_eq_ok_iff named).mp h
  exact append_inj (List.append_singleton_inj.mp same).2

theorem of_eq_of_place_source
    (h : files.place (config.sourcePath (Fingerprint.of text).artifactName) =
      .ok (w ++ [base ++ ".src"])) : (Fingerprint.of text).artifactName = base := by
  rw [sourcePath_artifactName] at h
  obtain ⟨-, -, w', -, same⟩ := (place_join_eq_ok_iff (isFileName_listingName text)).mp h
  exact (append_inj (List.append_singleton_inj.mp same).2).symm

/-- **A listing and a unit side by side are of one name.** -/
theorem Configuration.Distinct.eq_of_place (distinct : config.Distinct)
    (leads : files.Leads config.workDir w) (built : IsBuilt config name)
    (built' : IsBuilt config other)
    (listing : files.place (config.sourcePath name) = .ok (w ++ [base ++ ".src"]))
    (unit : files.place (config.artifactPath other) = .ok (w ++ [base ++ ".unit"])) :
    name = other := by
  have listing' := place_source_of_artifact unit
  rcases built with rfl | ⟨text, rfl⟩ <;> rcases built' with rfl | ⟨text', rfl⟩
  · rfl
  · rw [← of_eq_of_place_source listing'] at listing
    exact (distinct files w text' leads listing).symm
  · rw [← of_eq_of_place_source listing] at listing'
    exact distinct files w text leads listing'
  · exact (of_eq_of_place_source listing).trans (of_eq_of_place_source listing').symm

/-! ## What becomes of a name -/

/-- The files of a name are revised: a listing is stored if one is given, the unit is that of the
listing or is gone, and nothing else changes. -/
structure Revision (config : Configuration) (name : String) (source : Option String)
    (files files' : FileTree) : Prop where
  agrees : files.AgreesBut files' fun place =>
    (∃ listing ∈ source, files.place (config.sourcePath name) = .ok place) ∨
      files.place (config.artifactPath name) = .ok place
  listing : ∀ listing ∈ source, files'.read (config.sourcePath name) = .ok listing.toUTF8
  unit : ∀ bytes, files'.read (config.artifactPath name) = .ok bytes →
    BuildCache.Assembles files' (config.sourcePath name) bytes

namespace Revision

theorem unit_elsewhere (revision : Revision config name source files files')
    (apart : files.place (config.artifactPath name) ≠ .ok (w ++ [base ++ ".unit"])) :
    files'.node? (w ++ [base ++ ".unit"]) = files.node? (w ++ [base ++ ".unit"]) := by
  apply revision.agrees.elsewhere
  rintro (⟨listing, -, hsource⟩ | htarget)
  · obtain ⟨w', base', same⟩ := exists_of_place_source hsource
    exact append_src_ne_append_unit (List.append_singleton_inj.mp same).2.symm
  · exact apart htarget

theorem listing_elsewhere (revision : Revision config name source files files')
    (apart : ¬ ∃ listing ∈ source,
      files.place (config.sourcePath name) = .ok (w ++ [base ++ ".src"])) :
    files'.node? (w ++ [base ++ ".src"]) = files.node? (w ++ [base ++ ".src"]) := by
  apply revision.agrees.elsewhere
  rintro (hsource | htarget)
  · exact apart hsource
  · obtain ⟨w', base', same⟩ := exists_of_place_artifact htarget
    exact append_src_ne_append_unit (List.append_singleton_inj.mp same).2

end Revision

theorem revision_discard : Revision config name none files
    (files.discard (config.artifactPath name)) := by
  obtain ⟨q, base, -, named, -, path⟩ := config.exists_paths name
  refine ⟨?_, nofun, ?_⟩
  · rw [path]
    exact (agreesBut_discard named).mono fun _ => Or.inr
  · intro bytes hread
    rw [path] at hread
    exact absurd hread (read_discard named)

namespace BuildCache

variable [Tags]

/-- Where the toolchain is to run, the listing is stored if one is given, and nothing else has
changed. -/
theorem Prepares.agrees_of_made (prepares : c.Prepares source name files)
    (made : c.files.createDirectories c.config.workDir = .ok c.files) :
    c.files.AgreesBut files fun place =>
      ∃ listing ∈ source, c.files.place (c.config.sourcePath name) = .ok place := by
  cases source with
  | none =>
      obtain ⟨made', hmade, rfl⟩ := prepares
      cases made.symm.trans hmade
      exact AgreesBut.refl _ _
  | some listing =>
      obtain ⟨made', hmade, agrees, -⟩ := prepares.agrees
      cases made.symm.trans hmade
      exact agrees.mono fun place hplace => ⟨listing, rfl, hplace⟩

theorem agreesBut_compile_of_inProcess (inProcess : c.compiler = .inProcess) (name : String) :
    c.files.AgreesBut (c.compile name).2.files
      (c.files.place (c.config.artifactPath name) = .ok ·) := by
  have confined : c.compiler.Confined := by
    rw [inProcess]
    exact Compiler.confined_inProcess
  exact agreesBut_compile confined name

theorem read_source_compile (inProcess : c.compiler = .inProcess)
    {bytes : ByteArray} (stored : c.files.read (c.config.sourcePath name) = .ok bytes) :
    (c.compile name).2.files.read (c.config.sourcePath name) = .ok bytes := by
  have agrees := agreesBut_compile_of_inProcess inProcess name
  exact (agrees.read_iff fun place hplace htarget =>
    place_source_ne_place_artifact hplace htarget rfl).mpr stored

/-- A unit that is there after compiling is that of the listing. -/
theorem assembles_compile (inProcess : c.compiler = .inProcess) {bytes : ByteArray}
    (hread : (c.compile name).2.files.read (c.config.artifactPath name) = .ok bytes) :
    Assembles (c.compile name).2.files (c.config.sourcePath name) bytes := by
  rcases compile_cases_of_inProcess inProcess name with
    ⟨target, content, compiles, done⟩ | ⟨e, failed⟩
  · obtain ⟨listing, u, hlisting, assembled, rfl⟩ := compiles.assembles
    have again := read_source_compile inProcess (readText_eq_ok_iff_read.mp hlisting)
    rw [done] at hread
    cases compiles.read.symm.trans hread
    exact ⟨listing, u, readText_eq_ok_iff_read.mpr again, assembled, rfl⟩
  · rw [failed] at hread
    obtain ⟨q, base, -, named, -, path⟩ := c.config.exists_paths name
    dsimp only at hread
    rw [path] at hread
    exact absurd hread (read_discard named)

/-- **A build revises the files of its name**, or leaves a temporary file at most. -/
theorem revision_compileStored (inProcess : c.compiler = .inProcess)
    (made : c.files.createDirectories c.config.workDir = .ok c.files) (source : Option String)
    (name : String) : c.files.AgreesBut (c.compileStored source name).2.files IsTemporary ∨
      Revision c.config name source c.files (c.compileStored source name).2.files := by
  rcases compileStored_cases source name with
    ⟨ran, prepares, compiled⟩ | ⟨-, e, files, abandons, failed⟩
  · have stored := prepares.agrees_of_made made
    obtain ⟨-, -, -, listing⟩ := prepares.agrees
    have agrees := agreesBut_compile_of_inProcess (c := { c with files := ran }) inProcess name
    rw [compiled]
    refine Or.inr ⟨?_, fun l hl => ?_, fun bytes => ?_⟩
    · exact (stored.mono fun _ => Or.inl).trans
        (agrees.mono fun _ htarget => Or.inr (stored.place_iff.mp htarget))
    · exact read_source_compile (c := { c with files := ran }) inProcess (listing l hl)
    · exact assembles_compile (c := { c with files := ran }) inProcess
  · have here : c.compileStored source name = (.error e, { c with files }) := failed c.compiler
    rw [here]
    refine Or.inl ?_
    rcases abandons with ⟨e', paves⟩ | ⟨made', hmade, agrees⟩
    · cases (createDirectories_eq_ok_iff.mp made).symm.trans paves
    · cases made.symm.trans hmade
      exact agrees

end BuildCache

/-! ## Genuine units -/

/-- The units of a directory are those of the listings beside them, and the listings of queries, if
it has no definition of their name, are those that the queries were planned to, for schemas that were
returned. -/
structure Genuine (config : Configuration) (returned : Schema → Prop) (w : List String)
    (files : FileTree) : Prop where
  unit : ∀ base node, files.node? (w ++ [base ++ ".unit"]) = some node →
    ∃ listing u name, files.node? (w ++ [base ++ ".src"]) = some (.file listing.toUTF8) ∧
      Assembly.assemble listing = .ok u ∧ node = .file u.artifact.toUTF8 ∧ IsBuilt config name ∧
      files.place (config.artifactPath name) = .ok (w ++ [base ++ ".unit"])
  query : ∀ text node, (Fingerprint.of text).artifactName ≠ config.definitionName →
    files.node? (w ++ [listingName text]) = some node →
    ∃ text₀ schema listing, returned schema ∧ Fingerprint.of text₀ = Fingerprint.of text ∧
      planned text₀ schema = .ok listing ∧ node = .file listing.toUTF8

/-- A listing that is given for a query is one that the query is planned to, for a schema that was
returned. -/
def IsPlanned (config : Configuration) (returned : Schema → Prop) (name : String)
    (source : Option String) : Prop :=
  ∀ listing ∈ source, name ≠ config.definitionName → ∃ text₀ schema, returned schema ∧
    (Fingerprint.of text₀).artifactName = name ∧ planned text₀ schema = .ok listing

theorem isPlanned_of_planned {schema : Schema} {listing : String} (hreturned : returned schema)
    (hplanned : planned text schema = .ok listing) :
    IsPlanned config returned (Fingerprint.of text).artifactName (some listing) := by
  rintro _ ⟨⟩ -
  exact ⟨text, schema, hreturned, rfl, hplanned⟩

theorem isPlanned_definition (h : name = config.definitionName) :
    IsPlanned config returned name source := fun _ _ ne => absurd h ne

namespace Genuine

theorem of_empty (h : ∀ name, files.node? (w ++ [name]) = none) :
    Genuine config returned w files := by
  constructor
  · intro base node found
    rw [h] at found
    cases found
  · intro text node _ found
    rw [h] at found
    cases found

theorem mono (genuine : Genuine config returned w files)
    (h : ∀ schema, returned schema → returned' schema) : Genuine config returned' w files := by
  refine ⟨genuine.unit, ?_⟩
  intro text node ne found
  obtain ⟨text₀, schema, listing, hreturned, rest⟩ := genuine.query text node ne found
  exact ⟨text₀, schema, listing, h schema hreturned, rest⟩

theorem of_temporary [Tags] (genuine : Genuine config returned w files)
    (agrees : files.AgreesBut files' IsTemporary) : Genuine config returned w files' := by
  have listings : ∀ base, files'.node? (w ++ [base ++ ".src"]) = files.node? (w ++ [base ++ ".src"]) :=
    fun base => agrees.elsewhere _ (not_isTemporary getLast?_append_src)
  have units : ∀ base, files'.node? (w ++ [base ++ ".unit"]) =
      files.node? (w ++ [base ++ ".unit"]) :=
    fun base => agrees.elsewhere _ (not_isTemporary getLast?_append_unit)
  constructor
  · intro base node found
    rw [units] at found
    obtain ⟨listing, u, name, hlisting, assembled, hnode, built, hplace⟩ :=
      genuine.unit base node found
    exact ⟨listing, u, name, (listings base).trans hlisting, assembled, hnode, built,
      agrees.place_iff.mpr hplace⟩
  · intro text node ne found
    unfold listingName at found
    rw [listings] at found
    exact genuine.query text node ne found

/-- **A revision leaves units genuine.** -/
theorem revise (genuine : Genuine config returned w files) (distinct : config.Distinct)
    (leads : files.Leads config.workDir w) (built : IsBuilt config name)
    (revision : Revision config name source files files')
    (given : IsPlanned config returned name source) : Genuine config returned w files' := by
  have agrees := revision.agrees
  constructor
  · intro base node found
    by_cases own : files.place (config.artifactPath name) = .ok (w ++ [base ++ ".unit"])
    · have hplace := agrees.place_iff.mpr own
      cases node with
      | directory =>
          obtain ⟨_, _, _, -, -, file, -⟩ := genuine.unit base _ (agrees.directory_iff.mp found)
          cases file
      | file bytes =>
          obtain ⟨listing, u, stored, assembled, hbytes⟩ :=
            revision.unit bytes (read_eq_ok_iff.mpr ⟨_, hplace, found⟩)
          obtain ⟨place, hsource, hnode⟩ := readText_eq_ok_iff.mp stored
          cases (place_source_of_artifact hplace).symm.trans hsource
          exact ⟨listing, u, name, hnode, assembled, congrArg Node.file hbytes, built, hplace⟩
    · -- The unit of another name is as it was, and so is its listing.
      rw [revision.unit_elsewhere own] at found
      obtain ⟨listing, u, other, hlisting, assembled, hnode, built', hplace⟩ :=
        genuine.unit base node found
      refine ⟨listing, u, other, ?_, assembled, hnode, built', agrees.place_iff.mpr hplace⟩
      rw [← hlisting]
      apply revision.listing_elsewhere
      rintro ⟨listing', -, hsource⟩
      exact own (distinct.eq_of_place leads built built' hsource hplace ▸ hplace)
  · intro text node ne found
    by_cases own : ∃ listing ∈ source,
        files.place (config.sourcePath name) = .ok (w ++ [listingName text])
    · obtain ⟨listing, hlisting, hsource⟩ := own
      have query : (Fingerprint.of text).artifactName = name := by
        rcases built with rfl | ⟨text', rfl⟩
        · exact absurd (distinct files w text leads hsource) ne
        · exact (of_eq_of_place_source hsource).symm
      obtain ⟨text₀, schema, hreturned, hname, hplanned⟩ := given listing hlisting (query ▸ ne)
      refine ⟨text₀, schema, listing, hreturned,
        Fingerprint.artifactName_injective (hname.trans query.symm), hplanned, ?_⟩
      obtain ⟨place, hplace, hnode⟩ := read_eq_ok_iff.mp (revision.listing listing hlisting)
      cases hsource.symm.trans (agrees.place_iff.mp hplace)
      exact Option.some.inj (found.symm.trans hnode)
    · exact genuine.query text node ne ((revision.listing_elsewhere own).symm.trans found)

end Genuine

end TemporalDB
