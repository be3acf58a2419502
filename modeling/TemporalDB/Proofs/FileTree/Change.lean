import TemporalDB.Proofs.FileTree.Walk

/-!
# Changes of files

Writing, removing and moving a file put a content, or nothing, at one place of the tree. Every
directory stays where it is.
-/

namespace TemporalDB.FileTree

variable {t t' : FileTree} {p source : Path} {name : String} {w place other : List String}
  {content next : Option ByteArray} {bytes : ByteArray}

/-- The tree with a file of some content at a place, or with nothing there. -/
def assign (t : FileTree) (place : List String) (content : Option ByteArray) : FileTree :=
  { t with nodes := content.elim (t.nodes.erase place) fun c => t.nodes.insert place (.file c) }

/-! ## What is at a place -/

theorem find?_assign : (t.assign place content).nodes.find? other =
    if other = place then content.map .file else t.nodes.find? other := by
  have here : compare place other = .eq ↔ other = place :=
    Std.LawfulEqOrd.compare_eq_iff_eq.trans eq_comm
  unfold assign
  cases content with
  | none => exact (OrderedMap.find?_erase _ _ _).trans (if_congr here rfl rfl)
  | some c => exact (OrderedMap.find?_insert _ _ _ _).trans (if_congr here rfl rfl)

theorem node?_assign (full : place ≠ []) : (t.assign place content).node? other =
    if other = place then content.map .file else t.node? other := by
  unfold node?
  by_cases root : other = []
  · subst root
    rw [if_neg (Ne.symm full)]
    rfl
  · have branch : ¬ other.isEmpty = true := mt List.isEmpty_iff.mp root
    rw [if_neg branch, if_neg branch, find?_assign]

theorem node?_assign_self : (t.assign (w ++ [name]) content).node? (w ++ [name]) =
    content.map .file := by
  rw [node?_assign (by simp), if_pos rfl]

theorem node?_assign_of_ne (full : place ≠ []) (h : other ≠ place) :
    (t.assign place content).node? other = t.node? other := by
  rw [node?_assign full, if_neg h]

theorem node?_assign_of_name_ne {file file' : String} (ne : file' ≠ file) :
    (t.assign (w ++ [file]) content).node? (w ++ [file']) = t.node? (w ++ [file']) := by
  apply node?_assign_of_ne (by simp)
  intro same
  exact ne (List.singleton_inj.mp (List.append_cancel_left same))

/-- What is not in a directory is as before. -/
structure SameOutside (t t' : FileTree) (w : List String) : Prop where
  home : t'.home = t.home
  node : ∀ place, (∀ name, place ≠ w ++ [name]) → t'.node? place = t.node? place

theorem sameOutside_assign (t : FileTree) (w : List String) (name : String)
    (content : Option ByteArray) : t.SameOutside (t.assign (w ++ [name]) content) w :=
  ⟨rfl, fun _ outside => node?_assign_of_ne (List.concat_ne_nil _ _) (outside name)⟩

theorem SameOutside.trans {t'' : FileTree} (same : t.SameOutside t' w)
    (same' : t'.SameOutside t'' w) : t.SameOutside t'' w :=
  ⟨same'.home.trans same.home,
    fun place outside => (same'.node place outside).trans (same.node place outside)⟩

theorem ext_nodes (home : t'.home = t.home)
    (nodes : ∀ place, t'.nodes.find? place = t.nodes.find? place) : t' = t := by
  obtain ⟨h, m⟩ := t
  obtain ⟨h', m'⟩ := t'
  have same : m' = m := OrderedMap.ext nodes
  subst same home
  rfl

theorem assign_assign : (t.assign place content).assign place next = t.assign place next := by
  apply ext_nodes
  · rfl
  · intro other
    rw [find?_assign, find?_assign, find?_assign]
    split <;> rfl

theorem assign_self (h : t.nodes.find? place = content.map .file) : t.assign place content = t := by
  apply ext_nodes
  · rfl
  · intro other
    rw [find?_assign]
    split
    · next same => rw [same, h]
    · rfl

theorem keeps_assign (content : Option ByteArray) (full : place ≠ []) (free : t.node? place ≠ some .directory) :
    t.Keeps (t.assign place content) := by
  refine ⟨rfl, ?_⟩
  intro other directory
  rw [node?_assign_of_ne full]
  · exact directory
  · rintro rfl
    exact free directory

theorem keeps_of_assign (full : place ≠ []) : (t.assign place content).Keeps t := by
  refine ⟨rfl, ?_⟩
  intro other directory
  rw [node?_assign full] at directory
  split at directory
  · cases content <;> cases directory
  · exact directory

/-! ## Reading -/

theorem read_eq_ok_iff : t.read p = .ok bytes ↔
    ∃ place, t.place p = .ok place ∧ t.node? place = some (.file bytes) := by
  unfold read
  rw [bind_eq_ok_iff]
  apply exists_congr
  intro place
  apply and_congr_right
  intro _
  split
  · next nothing => simp [nothing]
  · next directory => simp [directory]
  · next file => simp [file]

/-- Bytes are read as a text if they are those of the text. -/
theorem fromUTF8?_eq_some_iff {s : String} : String.fromUTF8? bytes = some s ↔ bytes = s.toUTF8 := by
  unfold String.fromUTF8?
  constructor
  · intro h
    split at h
    · rw [← Option.some.inj h]
      rfl
    · cases h
  · rintro rfl
    exact dif_pos s.isValidUTF8

theorem readText_eq_ok_iff {s : String} : t.readText p = .ok s ↔
    ∃ place, t.place p = .ok place ∧ t.node? place = some (.file s.toUTF8) := by
  unfold readText
  rw [bind_eq_ok_iff]
  constructor
  · rintro ⟨bytes, hread, htext⟩
    obtain ⟨place, hplace, hnode⟩ := read_eq_ok_iff.mp hread
    refine ⟨place, hplace, ?_⟩
    split at htext
    · next hs =>
        cases htext
        rwa [← fromUTF8?_eq_some_iff.mp hs]
    · cases htext
  · rintro ⟨place, hplace, hnode⟩
    refine ⟨s.toUTF8, read_eq_ok_iff.mpr ⟨place, hplace, hnode⟩, ?_⟩
    rw [fromUTF8?_eq_some_iff.mpr rfl]

theorem readText_eq_ok_iff_read {s : String} : t.readText p = .ok s ↔ t.read p = .ok s.toUTF8 := by
  rw [readText_eq_ok_iff, read_eq_ok_iff]

/-! ## Writing, removing and moving -/

theorem write_join_eq_ok_iff (h : IsFileName name) : t.write (p.join name) bytes = .ok t' ↔
    ∃ place, t.place (p.join name) = .ok place ∧ t.node? place ≠ some .directory ∧
      t' = t.assign place (some bytes) := by
  unfold write placeOfFile
  rw [if_neg (by rw [Path.endsInSlash_join h]; exact Bool.false_ne_true), bind_eq_ok_iff]
  apply exists_congr
  intro place
  apply and_congr_right
  intro _
  split
  · next directory => simp [directory]
  · next free =>
      constructor
      · intro h
        exact ⟨free, (Except.ok.inj h).symm⟩
      · rintro ⟨-, rfl⟩
        rfl

theorem remove_eq_ok_iff : t.remove p = .ok t' ↔
    ∃ place bytes, t.place p = .ok place ∧ t.node? place = some (.file bytes) ∧
      t' = t.assign place none := by
  unfold remove
  rw [bind_eq_ok_iff]
  apply exists_congr
  intro place
  split
  · next nothing => simp [nothing]
  · next directory => simp [directory]
  · next bytes file =>
      constructor
      · rintro ⟨hplace, h⟩
        exact ⟨bytes, hplace, file, (Except.ok.inj h).symm⟩
      · rintro ⟨-, hplace, -, rfl⟩
        exact ⟨hplace, rfl⟩

theorem discard_cases (t : FileTree) (p : Path) : t.discard p = t ∨
    ∃ place bytes, t.place p = .ok place ∧ t.node? place = some (.file bytes) ∧
      t.discard p = t.assign place none := by
  unfold discard
  cases removed : t.remove p with
  | error e => exact Or.inl rfl
  | ok t' =>
      obtain ⟨place, bytes, hplace, hnode, rfl⟩ := remove_eq_ok_iff.mp removed
      exact Or.inr ⟨place, bytes, hplace, hnode, rfl⟩

theorem discard_of_file (hplace : t.place p = .ok place)
    (hnode : t.node? place = some (.file bytes)) : t.discard p = t.assign place none := by
  unfold discard
  rw [remove_eq_ok_iff.mpr ⟨place, bytes, hplace, hnode, rfl⟩]
  rfl

theorem rename_join_eq_ok_iff (h : IsFileName name) (hplace : t.place source = .ok place)
    (hnode : t.node? place = some (.file bytes)) : t.rename source (p.join name) = .ok t' ↔
      ∃ target, t.place (p.join name) = .ok target ∧ t.node? target ≠ some .directory ∧
        t' = (t.assign place none).assign target (some bytes) := by
  have named : t.walkFrom (p.join name) (p.join name).named = t.place (p.join name) := by
    unfold FileTree.place
    rw [Path.named_join h, Path.pieces_join h.plain]
  unfold rename
  rw [hplace, ok_bind, hnode]
  dsimp only
  rw [named, bind_eq_ok_iff]
  apply exists_congr
  intro target
  apply and_congr_right
  intro _
  rw [if_neg (by rw [Path.endsInSlash_join h]; exact Bool.false_ne_true)]
  split
  · next directory => simp [directory]
  · next free =>
      constructor
      · intro h
        exact ⟨free, (Except.ok.inj h).symm⟩
      · rintro ⟨-, rfl⟩
        rfl

end TemporalDB.FileTree
