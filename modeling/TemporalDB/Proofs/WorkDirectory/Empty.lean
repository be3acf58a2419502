import TemporalDB.Proofs.WorkDirectory.Build
import TemporalDB.Tags.Numbered

/-!
# An empty work directory

With the default configuration there is room for whatever is built, and in an empty work directory
nothing stands in its way.
-/

namespace TemporalDB

open FileTree

def furnished : FileTree := (FileTree.new []).addDirectory ["tmp"]

theorem leads_furnished : furnished.Leads Configuration.default.workDir ["tmp"] := ⟨rfl, rfl⟩

theorem find?_new {w : List String} {name : String} :
    (FileTree.new []).nodes.find? (w ++ [name]) = none := by
  have keys : (FileTree.new []).nodes.keys = [[]] := rfl
  by_contra found
  have mem := mem_keys_iff.mpr found
  rw [keys, List.mem_singleton] at mem
  exact absurd mem (by simp)

theorem sound_default : Configuration.default.Sound := by
  refine ⟨by decide, ?_, by decide, by decide, by decide⟩
  intro text same
  have length := Fingerprint.length_artifactName text
  rw [same] at length
  exact absurd length (by decide)

theorem hasRoom_default : Configuration.default.HasRoom := by
  intro text
  refine ⟨Path.text_join_ne_empty (isFileName_unitName text), ?_, ?_⟩
  · refine fun zero => absurd ((Path.mem_join (isFileName_unitName text).plain (by decide)).mp zero) ?_
    rw [not_or]
    exact ⟨by decide, unbroken_of_isNameChar (isNameChar_fileName (by decide))⟩
  · refine lt_of_eq_of_lt (Path.utf8ByteSize_join (isFileName_unitName text).plain) ?_
    have size : ((Fingerprint.of text).artifactName ++ ".unit").utf8ByteSize = 75 :=
      utf8ByteSize_unitName
    rw [size]
    decide

theorem node?_furnished {name : String} : furnished.node? (["tmp"] ++ [name]) = none := by
  unfold furnished
  rw [node?_append, find?_addDirectory, if_neg (by simp)]
  exact find?_new

theorem node?_made_furnished {files : FileTree} {w : List String} {name : String}
    (made : furnished.createDirectories Configuration.default.workDir = .ok files)
    (leads : files.Leads Configuration.default.workDir w) : files.node? (w ++ [name]) = none := by
  rw [createDirectories_of_hasRoom hasRoom_default leads_furnished] at made
  cases made
  rw [leads.unique leads_furnished, node?_furnished]

theorem vacant_furnished : Vacant Configuration.default furnished := by
  refine ⟨?_, ?_, ?_⟩
  · intro files w made leads text
    exact node?_made_furnished made leads
  · intro files w made leads text
    exact node?_made_furnished made leads
  · intro files w made leads ending _
    rw [node?_made_furnished made leads]
    exact (Option.some_ne_none _).symm

/-- A temporary file can be made in the work directory for any name of a hundred letters. -/
theorem place_furnished {p : Path} {file : String} (leads : furnished.Leads p ["tmp"])
    (short : p.lead.utf8ByteSize ≤ 4) (unbroken : '\x00' ∉ p.text.toList)
    (named : file.toList.all isNameChar = true) (size : file.toList.length ≤ 100) :
    ∃ place, furnished.place (furnished.temporary p file) = .ok place := by
  have marked : furnished.mark = markOf (Tags.numbered 0) := by decide +kernel
  have plain : '/' ∉ file.toList := fun slash =>
    absurd (List.all_eq_true.mp named _ slash) (by decide)
  have temporary := isFileName_temporaryName (t := furnished) plain
  have chars : (furnished.temporaryName file).toList.all isNameChar = true := by
    unfold temporaryName
    rw [marked, String.toList_append, String.toList_append, List.all_append, List.all_append, named]
    decide
  have length : (furnished.temporaryName file).utf8ByteSize ≤ 142 := by
    rw [utf8ByteSize_of_isNameChar chars]
    unfold temporaryName
    rw [marked, String.toList_append, String.toList_append, List.length_append, List.length_append]
    have parts : ".".toList.length = 1 ∧ (markOf (Tags.numbered 0)).toList.length = 41 := by
      decide
    omega
  have legal : (p.join (furnished.temporaryName file)).Legal := by
    refine ⟨Path.text_join_ne_empty temporary, ?_, ?_⟩
    · rw [Path.mem_join temporary.plain (by decide), not_or]
      exact ⟨unbroken, unbroken_of_isNameChar chars⟩
    · rw [Path.utf8ByteSize_join temporary.plain]
      unfold pathBound
      omega
  refine ⟨_, (place_join_eq_ok_iff temporary).mpr ⟨legal, ?_, ["tmp"], leads, rfl⟩⟩
  unfold maxName
  omega

theorem placeable_furnished {name : String} (named : name.toList.all isNameChar = true)
    (size : name.toList.length ≤ 96) : Placeable Configuration.default furnished name := by
  constructor
  · refine place_furnished (leads_ofParts.mpr leads_furnished) (by decide) (by decide) ?_ ?_
    · rw [String.toList_append, List.all_append, named]
      decide
    · rw [String.toList_append, List.length_append]
      have ending : ".src".toList.length = 4 := by decide
      omega
  · exact place_furnished leads_furnished (by decide) (by decide) named (Nat.le_trans size (by decide))

theorem placeable_query (text : String) :
    Placeable Configuration.default furnished (Fingerprint.of text).artifactName := by
  apply placeable_furnished (Fingerprint.isNameChar_artifactName _)
  rw [Fingerprint.length_artifactName]
  decide

theorem holds_furnished : Holds Configuration.default (fun _ _ => True) ["tmp"] furnished :=
  vacant_furnished.holds hasRoom_default
    (createDirectories_of_hasRoom hasRoom_default leads_furnished) leads_furnished

end TemporalDB
