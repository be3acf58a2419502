import TemporalDB.BuildCache
import TemporalDB.Proofs.FileTree.Change

/-!
# Temporary files

The mark of a temporary name is one that no name of the tree ends in, so there is never anything at
the place of a temporary file. As long as only names that are not temporary come and go, marks have
one size, and a temporary file that can be made can still be made.
-/

namespace TemporalDB.FileTree

variable {t t' : FileTree} {p : Path} {name file : String} {w place : List String}
  {content : Option ByteArray}

/-! ## Names -/

theorem mem_keys_iff : place ∈ t.nodes.keys ↔ t.nodes.find? place ≠ none := by
  rw [Option.ne_none_iff_exists']
  constructor
  · intro h
    obtain ⟨⟨_, node⟩, he, rfl⟩ := List.mem_map.mp h
    exact ⟨node, OrderedMap.find?_eq_some_iff.mpr he⟩
  · rintro ⟨node, hnode⟩
    exact List.mem_map.mpr ⟨(place, node), OrderedMap.find?_eq_some_iff.mp hnode, rfl⟩

theorem mem_names_iff : name ∈ t.names ↔ ∃ place, t.nodes.find? place ≠ none ∧ name ∈ place := by
  unfold names
  rw [List.mem_flatten]
  exact exists_congr fun place => and_congr_left' mem_keys_iff

theorem mem_names_of_find? (found : t.nodes.find? (w ++ [name]) ≠ none) : name ∈ t.names :=
  mem_names_iff.mpr ⟨_, found, List.mem_append_right w List.mem_cons_self⟩

/-- A file that comes or goes takes no name but its own along. -/
theorem mem_names_assign {other : String} (directory : t.node? w = some .directory)
    (ne : other ≠ name) : other ∈ (t.assign (w ++ [name]) content).names ↔ other ∈ t.names := by
  -- a name on the way to the file is that of a directory
  have above : other ∈ w → t.nodes.find? w ≠ none := by
    intro mem
    unfold node? at directory
    rw [if_neg (by rw [List.isEmpty_iff]; exact List.ne_nil_of_mem mem)] at directory
    rw [directory]
    exact Option.some_ne_none _
  have way : other ∈ w ++ [name] → other ∈ w := fun mem =>
    (List.mem_append.mp mem).resolve_right fun last => ne (List.mem_singleton.mp last)
  have stays : ∀ place, place ≠ w ++ [name] →
      (t.assign (w ++ [name]) content).nodes.find? place = t.nodes.find? place := fun place apart => by
    rw [find?_assign, if_neg apart]
  have shorter : w ≠ w ++ [name] := by simp
  rw [mem_names_iff, mem_names_iff]
  constructor
  · rintro ⟨place, found, mem⟩
    by_cases same : place = w ++ [name]
    · rw [same] at mem
      exact ⟨w, above (way mem), way mem⟩
    · rw [stays place same] at found
      exact ⟨place, found, mem⟩
  · rintro ⟨place, found, mem⟩
    by_cases same : place = w ++ [name]
    · rw [same] at mem
      refine ⟨w, ?_, way mem⟩
      rw [stays w shorter]
      exact above (way mem)
    · refine ⟨place, ?_, mem⟩
      rwa [stays place same]

theorem getLast?_of_tmp (ending : ".tmp".toList <:+ name.toList) :
    name.toList.getLast? = some 'p' := by
  obtain ⟨front, hfront⟩ := ending
  rw [← hfront, List.getLast?_append_of_ne_nil _ (by decide)]
  rfl

/-- A file with another ending comes and goes without a temporary one. -/
theorem mem_names_assign_of_last (content : Option ByteArray)
    (directory : t.node? w = some .directory) (last : name.toList.getLast? ≠ some 'p')
    (other : String) (ending : ".tmp".toList <:+ other.toList) :
    other ∈ t.names ↔ other ∈ (t.assign (w ++ [name]) content).names := by
  refine (mem_names_assign directory ?_).symm
  rintro rfl
  exact last (getLast?_of_tmp ending)

/-! ## Marks -/

section Marks

variable [Tags]

def mark (t : FileTree) : String := markOf (Tags.tag t)

def temporaryName (t : FileTree) (name : String) : String := "." ++ name ++ t.mark

theorem toList_mark (t : FileTree) :
    t.mark.toList = '.' :: ((Tags.tag t).toList ++ ".tmp".toList) := by
  unfold mark markOf
  rw [String.toList_append, String.toList_append, List.append_assoc]
  rfl

theorem suffix_mark (t : FileTree) : ".tmp".toList <:+ t.mark.toList := by
  rw [toList_mark, ← List.cons_append]
  exact List.suffix_append _ _

theorem two_lt_length_mark (t : FileTree) : 2 < t.mark.toList.length := by
  rw [toList_mark]
  simp

/-- There are no slashes in a mark and nothing that ends paths. -/
theorem not_mem_mark {c : Char} (t : FileTree) (strange : c.isAlphanum = false)
    (other : c ≠ '-' ∧ c ≠ '.') (unlike : c ∉ ".tmp".toList) : c ∉ t.mark.toList := by
  rw [toList_mark, List.mem_cons, List.mem_append, not_or, not_or]
  refine ⟨other.2, fun mem => ?_, unlike⟩
  rcases Tags.plain t c mem with alphanum | same
  · exact absurd (alphanum.symm.trans strange) (by decide)
  · exact other.1 same

theorem plain_mark (t : FileTree) : '/' ∉ t.mark.toList :=
  t.not_mem_mark (by decide) (by decide) (by decide)

theorem isFileName_temporaryName (h : '/' ∉ name.toList) : IsFileName (t.temporaryName name) := by
  refine isFileName_append ?_ t.plain_mark t.two_lt_length_mark
  rw [String.toList_append, List.mem_append, not_or]
  exact ⟨by decide, h⟩

/-! ## Places of temporary files -/

/-- The place of a file with a temporary name. -/
def IsTemporary (place : List String) : Prop :=
  ∃ w name, ∃ t : FileTree, place = w ++ [name] ∧ t.mark.toList <:+ name.toList

/-- A temporary file stands in the directory of the other files of its name. -/
theorem exists_temporary (p : Path) (name : String) : ∃ (q : Path) (base : String),
    ∀ t : FileTree, t.temporary p name = q.join (base ++ t.mark) ∧ IsFileName (base ++ t.mark) := by
  obtain ⟨q, base, plain, joined⟩ := p.exists_join_append ("." ++ name)
  exact ⟨q, base, fun t => ⟨joined _ t.plain_mark,
    isFileName_append plain t.plain_mark t.two_lt_length_mark⟩⟩

/-- **There is nothing at the place of a temporary file.** -/
theorem place_temporary (hplace : t.place (t.temporary p name) = .ok place) :
    IsTemporary place ∧ t.nodes.find? place = none := by
  obtain ⟨q, base, temporary⟩ := exists_temporary p name
  obtain ⟨path, named⟩ := temporary t
  rw [path] at hplace
  obtain ⟨-, -, w, -, rfl⟩ := (place_join_eq_ok_iff named).mp hplace
  have marked : t.mark.toList <:+ (base ++ t.mark).toList := by
    rw [String.toList_append]
    exact List.suffix_append _ _
  refine ⟨⟨w, _, t, rfl, marked⟩, ?_⟩
  by_contra found
  exact Tags.fresh t _ (mem_names_of_find? found) marked

/-- Where the directories stay and no temporary file comes or goes, one that can be made can still
be made. -/
theorem exists_place_temporary (keeps : t.Keeps t')
    (same : ∀ name, ".tmp".toList <:+ name.toList → (name ∈ t.names ↔ name ∈ t'.names))
    (h : t.place (t.temporary p file) = .ok place) :
    ∃ place', t'.place (t'.temporary p file) = .ok place' := by
  obtain ⟨q, base, temporary⟩ := exists_temporary p file
  obtain ⟨path, named⟩ := temporary t
  obtain ⟨path', named'⟩ := temporary t'
  rw [path] at h
  rw [path']
  obtain ⟨legal, size, v, leads, -⟩ := (place_join_eq_ok_iff named).mp h
  have size' : (base ++ t'.mark).utf8ByteSize = (base ++ t.mark).utf8ByteSize := by
    unfold mark markOf
    simp only [String.utf8ByteSize_append, Tags.steady t t' same]
  have unbroken : '\x00' ∉ (base ++ t'.mark).toList := by
    rw [String.toList_append, List.mem_append, not_or]
    refine ⟨fun zero => legal.unbroken ?_, t'.not_mem_mark (by decide) (by decide) (by decide)⟩
    refine (Path.mem_join named.plain (by decide)).mpr (Or.inr ?_)
    rw [String.toList_append]
    exact List.mem_append_left _ zero
  exact ⟨_, (place_join_eq_ok_iff named').mpr
    ⟨legal.join_of_le named named' unbroken size'.le, size'.le.trans size, v, leads.mono keeps, rfl⟩⟩

/-- A temporary file that can be made can still be made when another file has come or gone. -/
theorem place_temporary_assign (directory : t.node? w = some .directory)
    (free : t.node? (w ++ [name]) ≠ some .directory) (last : name.toList.getLast? ≠ some 'p')
    (h : t.place (t.temporary p file) = .ok place) :
    ∃ place', (t.assign (w ++ [name]) content).place
      ((t.assign (w ++ [name]) content).temporary p file) = .ok place' :=
  exists_place_temporary (keeps_assign content (List.concat_ne_nil _ _) free)
    (mem_names_assign_of_last content directory last) h

theorem not_isTemporary (last : name.toList.getLast? ≠ some 'p') : ¬ IsTemporary (w ++ [name]) := by
  rintro ⟨v, file, t, same, marked⟩
  rw [(List.append_singleton_inj.mp same).2] at last
  exact last (getLast?_of_tmp ((suffix_mark t).trans marked))

theorem IsTemporary.ne_nil (temporary : IsTemporary place) : place ≠ [] := by
  obtain ⟨w, name, t, rfl, -⟩ := temporary
  exact List.concat_ne_nil _ _

end Marks

end TemporalDB.FileTree
