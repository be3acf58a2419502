import TemporalDB.Pipeline
import TemporalDB.Proofs.BuildCache
import TemporalDB.Proofs.FileTree.Directories
import TemporalDB.Proofs.Fingerprint

/-!
# What a work directory holds

A work directory that only pipelines write to holds a unit of a query only beside the listing it was
assembled from, and only listings of queries that were compiled. Each build changes it at the file
names of its own name alone, and leaves it such a directory.
-/

namespace TemporalDB

open FileTree

def listingName (text : String) : String := (Fingerprint.of text).artifactName ++ ".src"

def unitName (text : String) : String := (Fingerprint.of text).artifactName ++ ".unit"

def planned (text : String) (schema : Schema) : Except QueryError String :=
  match Sql.parseQuery text with
  | .error e => .error (.parse e)
  | .ok query =>
    match Listing.ofQuery query schema with
    | .error e => .error (.plan e)
    | .ok source => .ok source.text

/-- The files of the definition and of queries are different files of one directory, and there can be
a listing of the definition. -/
structure Configuration.Sound (c : Configuration) : Prop where
  plain : '/' ∉ c.definitionName.toList
  apart : ∀ text, (Fingerprint.of text).artifactName ≠ c.definitionName
  legal : (c.sourcePath c.definitionName).Legal

/-- The path of the work directory is short enough for units of queries. -/
def Configuration.HasRoom (c : Configuration) : Prop :=
  ∀ text, (c.artifactPath (Fingerprint.of text).artifactName).Legal

/-- A name that is built: that of the definition or that of a query. -/
def IsBuilt (config : Configuration) (name : String) : Prop :=
  name = config.definitionName ∨ ∃ text, name = (Fingerprint.of text).artifactName

theorem planned_of_parse_error {text : String} {schema : Schema} {e : Sql.SyntaxError}
    (h : Sql.parseQuery text = .error e) : planned text schema = .error (.parse e) := by
  unfold planned
  rw [h]

theorem planned_of_plan_error {text : String} {schema : Schema} {query : Query} {e : PlanError}
    (h : Sql.parseQuery text = .ok query) (hplan : Listing.ofQuery query schema = .error e) :
    planned text schema = .error (.plan e) := by
  unfold planned
  rw [h]
  dsimp only
  rw [hplan]

theorem planned_of_plan {text : String} {schema : Schema} {query : Query} {source : Listing.Source}
    (h : Sql.parseQuery text = .ok query) (hplan : Listing.ofQuery query schema = .ok source) :
    planned text schema = .ok source.text := by
  unfold planned
  rw [h]
  dsimp only
  rw [hplan]

variable {config : Configuration} {text name file : String} {files files' : FileTree}
  {w place : List String} {content : Option ByteArray} {bytes : ByteArray}

/-! ## Names of files -/

theorem plain_artifactName : '/' ∉ (Fingerprint.of text).artifactName.toList := by
  intro slash
  exact absurd (List.all_eq_true.mp (Fingerprint.isNameChar_artifactName text) _ slash) (by decide)

theorem Configuration.Sound.plain_of_isBuilt (sound : config.Sound) (h : IsBuilt config name) :
    '/' ∉ name.toList := by
  rcases h with rfl | ⟨text, rfl⟩
  · exact sound.plain
  · exact plain_artifactName

theorem isFileName_listingName (text : String) : IsFileName (listingName text) :=
  isFileName_append plain_artifactName (by decide) (by decide)

theorem isFileName_unitName (text : String) : IsFileName (unitName text) :=
  isFileName_append plain_artifactName (by decide) (by decide)

theorem of_eq_of_unitName_eq {text' : String} (h : unitName text = unitName text') :
    Fingerprint.of text = Fingerprint.of text' :=
  Fingerprint.artifactName_injective (append_inj h)

theorem isNameChar_fileName {ending : String} (h : ending.toList.all isNameChar = true) :
    ((Fingerprint.of text).artifactName ++ ending).toList.all isNameChar = true := by
  rw [String.toList_append, List.all_append, Fingerprint.isNameChar_artifactName, h]
  rfl

theorem utf8ByteSize_fileName {ending : String} (h : ending.toList.all isNameChar = true) :
    ((Fingerprint.of text).artifactName ++ ending).utf8ByteSize = 70 + ending.toList.length := by
  rw [utf8ByteSize_of_isNameChar (isNameChar_fileName h), String.toList_append, List.length_append,
    Fingerprint.length_artifactName]

theorem unbroken_of_isNameChar (h : name.toList.all isNameChar = true) : '\x00' ∉ name.toList :=
  fun zero => absurd (List.all_eq_true.mp h _ zero) (by decide)

theorem utf8ByteSize_unitName : (unitName text).utf8ByteSize = 75 :=
  utf8ByteSize_fileName (by decide)

theorem utf8ByteSize_listingName : (listingName text).utf8ByteSize = 74 :=
  utf8ByteSize_fileName (by decide)

/-! ## Places of files -/

theorem sourcePath_artifactName : config.sourcePath (Fingerprint.of text).artifactName =
    config.workDir.join (listingName text) := rfl

theorem artifactPath_artifactName : config.artifactPath (Fingerprint.of text).artifactName =
    config.workDir.join (unitName text) := rfl

namespace Configuration.HasRoom

/-- If there is room for the unit of one query, there is room for those of all. -/
theorem of_legal (legal : (config.artifactPath (Fingerprint.of text).artifactName).Legal) :
    config.HasRoom := by
  intro other
  have size : (unitName other).utf8ByteSize ≤ (unitName text).utf8ByteSize := by
    rw [utf8ByteSize_unitName, utf8ByteSize_unitName]
  exact legal.join_of_le (isFileName_unitName text) (isFileName_unitName other)
    (unbroken_of_isNameChar (isNameChar_fileName (by decide))) size

/-- A query has room for its listing if it has room for its unit. -/
theorem legal_listing (room : config.HasRoom) (text : String) :
    (config.sourcePath (Fingerprint.of text).artifactName).Legal := by
  have size : (listingName text).utf8ByteSize ≤ (unitName text).utf8ByteSize := by
    rw [utf8ByteSize_unitName, utf8ByteSize_listingName]
    decide
  exact (room text).join_of_le (isFileName_unitName text) (isFileName_listingName text)
    (unbroken_of_isNameChar (isNameChar_fileName (by decide))) size

/-- The listing of a query has its place in the work directory. -/
theorem place_listing (room : config.HasRoom) (leads : files.Leads config.workDir w) :
    files.place (config.sourcePath (Fingerprint.of text).artifactName) =
      .ok (w ++ [listingName text]) := by
  refine (place_join_eq_ok_iff (isFileName_listingName text)).mpr
    ⟨room.legal_listing text, ?_, w, leads, rfl⟩
  rw [utf8ByteSize_listingName]
  decide

/-- The unit of a query has its place in the work directory. -/
theorem place_unit (room : config.HasRoom) (leads : files.Leads config.workDir w) :
    files.place (config.artifactPath (Fingerprint.of text).artifactName) =
      .ok (w ++ [unitName text]) := by
  refine (place_join_eq_ok_iff (isFileName_unitName text)).mpr
    ⟨room text, ?_, w, leads, rfl⟩
  rw [utf8ByteSize_unitName]
  decide

end Configuration.HasRoom

/-- The unit of a query has a place in the work directory only. -/
theorem exists_of_place_unit
    (h : files.place (config.artifactPath (Fingerprint.of text).artifactName) = .ok place) :
    config.HasRoom ∧ ∃ w, files.Leads config.workDir w ∧ place = w ++ [unitName text] := by
  rw [artifactPath_artifactName] at h
  obtain ⟨legal, -, leads⟩ := (place_join_eq_ok_iff (isFileName_unitName text)).mp h
  exact ⟨.of_legal legal, leads⟩

variable [Tags]

theorem not_mem_of_temporary {c : Char} {p : Path} (hc : c ≠ '/') (plain : '/' ∉ file.toList)
    (h : c ∉ (files.temporary p file).text.toList) : c ∉ file.toList := by
  intro mem
  apply h
  refine (Path.mem_join (isFileName_temporaryName (t := files) plain).plain hc).mpr (Or.inr ?_)
  unfold temporaryName
  simp only [String.toList_append, List.mem_append]
  exact Or.inl (Or.inr mem)

/-- Where a listing can be written under a temporary name, it can be moved to its own. -/
theorem Configuration.Sound.place_source (sound : config.Sound) (room : config.HasRoom)
    (built : IsBuilt config name)
    (hplace : files.place (files.temporary (.ofParts config.workDir.parts) (name ++ ".src")) =
      .ok place) :
    ∃ w, files.Leads config.workDir w ∧
      files.place (config.sourcePath name) = .ok (w ++ [name ++ ".src"]) := by
  have named : IsFileName (name ++ ".src") :=
    isFileName_append (sound.plain_of_isBuilt built) (by decide) (by decide)
  have temporary := isFileName_temporaryName (t := files) named.plain
  obtain ⟨-, size, w, leads, -⟩ := (place_join_eq_ok_iff temporary).mp hplace
  have legal : (config.sourcePath name).Legal := by
    rcases built with rfl | ⟨text, rfl⟩
    · exact sound.legal
    · exact room.legal_listing text
  have size' : (name ++ ".src").utf8ByteSize ≤ maxName := by
    unfold temporaryName at size
    simp only [String.utf8ByteSize_append] at size ⊢
    omega
  exact ⟨w, leads_ofParts.mp leads, (place_join_eq_ok_iff named).mpr
    ⟨legal, size', w, leads_ofParts.mp leads, rfl⟩⟩

/-- Where a unit can be written under a temporary name, it can be moved to its own. -/
theorem place_artifact_of_temporary (plain : '/' ∉ name.toList)
    (hplace : files.place (files.temporary config.workDir name) = .ok place) :
    ∃ w, files.Leads config.workDir w ∧
      files.place (config.artifactPath name) = .ok (w ++ [name ++ ".unit"]) := by
  have named : IsFileName (name ++ ".unit") := isFileName_append plain (by decide) (by decide)
  have temporary := isFileName_temporaryName (t := files) plain
  obtain ⟨legal, size, w, leads, -⟩ := (place_join_eq_ok_iff temporary).mp hplace
  have ending : ".unit".utf8ByteSize = 5 ∧ ".".utf8ByteSize = 1 ∧ ".tmp".utf8ByteSize = 4 := by
    decide
  have shorter : (name ++ ".unit").utf8ByteSize ≤ (files.temporaryName name).utf8ByteSize := by
    unfold temporaryName mark markOf
    simp only [String.utf8ByteSize_append]
    omega
  have unbroken : '\x00' ∉ (name ++ ".unit").toList := by
    rw [String.toList_append, List.mem_append, not_or]
    exact ⟨not_mem_of_temporary (by decide) plain legal.unbroken, by decide⟩
  exact ⟨w, leads, (place_join_eq_ok_iff named).mpr
    ⟨legal.join_of_le temporary named unbroken shorter, Nat.le_trans shorter size, w, leads, rfl⟩⟩

/-! ## What the directory holds -/

/-- Temporary files can be made for the listing and for the unit of a name. -/
structure Placeable (config : Configuration) (files : FileTree) (name : String) : Prop where
  listing : ∃ place, files.place
    (files.temporary (.ofParts config.workDir.parts) (name ++ ".src")) = .ok place
  unit : ∃ place, files.place (files.temporary config.workDir name) = .ok place

theorem Placeable.assign (placeable : Placeable config files name)
    (content : Option ByteArray) (directory : files.node? w = some .directory)
    (free : files.node? (w ++ [file]) ≠ some .directory) (last : file.toList.getLast? ≠ some 'p') :
    Placeable config (files.assign (w ++ [file]) content) name :=
  ⟨placeable.listing.elim fun _ h => place_temporary_assign directory free last h,
    placeable.unit.elim fun _ h => place_temporary_assign directory free last h⟩

/-- The content of the work directory of pipelines that compiled some texts for some schemas. -/
structure Holds (config : Configuration) (compiled : String → Schema → Prop) (w : List String)
    (files : FileTree) : Prop where
  room : config.HasRoom
  leads : files.Leads config.workDir w
  source : files.node? (w ++ [config.definitionName ++ ".src"]) ≠ some .directory
  artifact : files.node? (w ++ [config.definitionName ++ ".unit"]) ≠ some .directory
  /-- A stored listing is that of a text that was compiled. -/
  listing : ∀ text node, files.node? (w ++ [listingName text]) = some node →
    ∃ text₀ schema listing place, compiled text₀ schema ∧
      Fingerprint.of text₀ = Fingerprint.of text ∧ planned text₀ schema = .ok listing ∧
      node = .file listing.toUTF8 ∧
      files.place (files.temporary (.ofParts config.workDir.parts) (listingName text)) = .ok place
  /-- A unit is that of the listing stored beside it. -/
  unit : ∀ text node, files.node? (w ++ [unitName text]) = some node →
    ∃ listing u place, files.node? (w ++ [listingName text]) = some (.file listing.toUTF8) ∧
      Assembly.assemble listing = .ok u ∧ node = .file u.artifact.toUTF8 ∧
      files.place (files.temporary config.workDir (Fingerprint.of text).artifactName) = .ok place

namespace Holds

variable {compiled compiled' : String → Schema → Prop}

theorem mono (holds : Holds config compiled w files)
    (h : ∀ text schema, compiled text schema → compiled' text schema) :
    Holds config compiled' w files := by
  refine ⟨holds.room, holds.leads, holds.source, holds.artifact, ?_, holds.unit⟩
  intro text node found
  obtain ⟨text₀, schema, listing, place, hcompiled, rest⟩ := holds.listing text node found
  exact ⟨text₀, schema, listing, place, h _ _ hcompiled, rest⟩

/-- **One file of the directory changes.** A listing is stored where there is no unit, and a unit
beside its listing. -/
theorem assign (holds : Holds config compiled w files) (last : file.toList.getLast? ≠ some 'p')
    (free : files.node? (w ++ [file]) ≠ some .directory)
    (hlisting : ∀ text, listingName text = file → files.node? (w ++ [unitName text]) = none ∧
      ∃ text₀ schema listing place, compiled text₀ schema ∧
        Fingerprint.of text₀ = Fingerprint.of text ∧ planned text₀ schema = .ok listing ∧
        content = some listing.toUTF8 ∧
        files.place (files.temporary (.ofParts config.workDir.parts) (listingName text)) =
          .ok place)
    (hunit : ∀ text, unitName text = file → ∀ bytes ∈ content, ∃ listing u place,
      files.node? (w ++ [listingName text]) = some (.file listing.toUTF8) ∧
      Assembly.assemble listing = .ok u ∧ bytes = u.artifact.toUTF8 ∧
      files.place (files.temporary config.workDir (Fingerprint.of text).artifactName) =
        .ok place) :
    Holds config compiled w (files.assign (w ++ [file]) content) := by
  have full : w ++ [file] ≠ [] := List.concat_ne_nil _ _
  have keeps := keeps_assign content full free
  have elsewhere : ∀ other, other ≠ file →
      (files.assign (w ++ [file]) content).node? (w ++ [other]) = files.node? (w ++ [other]) :=
    fun _ ne => node?_assign_of_name_ne ne
  have undirected : ∀ other, files.node? (w ++ [other]) ≠ some .directory →
      (files.assign (w ++ [file]) content).node? (w ++ [other]) ≠ some .directory := fun other h dir =>
    h ((keeps_of_assign full).directory _ dir)
  refine ⟨holds.room, holds.leads.mono keeps, undirected _ holds.source,
    undirected _ holds.artifact, ?_, ?_⟩
  · intro text node found
    -- the file that is assigned, or one of the others, which stay
    by_cases same : listingName text = file
    · obtain ⟨-, text₀, schema, listing, place, hcompiled, hof, hplanned, rfl, hplace⟩ :=
        hlisting text same
      obtain ⟨place', hplace'⟩ := place_temporary_assign holds.leads.directory free last hplace
      rw [same, node?_assign_self] at found
      exact ⟨text₀, schema, listing, place', hcompiled, hof, hplanned,
        (Option.some.inj found).symm, hplace'⟩
    · rw [elsewhere _ same] at found
      obtain ⟨text₀, schema, listing, place, hcompiled, hof, hplanned, hnode, hplace⟩ :=
        holds.listing text node found
      obtain ⟨place', hplace'⟩ := place_temporary_assign holds.leads.directory free last hplace
      exact ⟨text₀, schema, listing, place', hcompiled, hof, hplanned, hnode, hplace'⟩
  · intro text node found
    by_cases same : unitName text = file
    · rw [same, node?_assign_self, Option.map_eq_some_iff] at found
      obtain ⟨bytes, hbytes, rfl⟩ := found
      obtain ⟨listing, u, place, hnode, hassemble, made, hplace⟩ := hunit text same bytes hbytes
      obtain ⟨place', hplace'⟩ := place_temporary_assign holds.leads.directory free last hplace
      refine ⟨listing, u, place', ?_, hassemble, congrArg Node.file made, hplace'⟩
      rw [elsewhere, hnode]
      rw [← same]
      exact append_src_ne_append_unit
    · rw [elsewhere _ same] at found
      obtain ⟨listing, u, place, hnode, hassemble, hu, hplace⟩ := holds.unit text node found
      obtain ⟨place', hplace'⟩ := place_temporary_assign holds.leads.directory free last hplace
      refine ⟨listing, u, place', ?_, hassemble, hu, hplace'⟩
      rw [elsewhere, hnode]
      -- a listing is stored only where no unit is, but a unit was found
      intro stored
      rw [(hlisting text stored).1] at found
      cases found

end Holds

end TemporalDB
