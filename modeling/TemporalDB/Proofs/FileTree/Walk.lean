import TemporalDB.FileTree
import TemporalDB.Proofs.OrderedMap
import TemporalDB.Proofs.Outcome
import TemporalDB.Proofs.Path

/-!
# Where paths lead

A path joined with a name leads to that name in the directory that the path leads to, and nowhere if
it leads to none. What a path leads to does not change as long as every directory stays one.
-/

namespace TemporalDB

/-- A path that a file can have: it is not empty, not too long and without the character that ends
paths. -/
structure Path.Legal (p : Path) : Prop where
  nonempty : p.text ≠ ""
  unbroken : '\x00' ∉ p.text.toList
  short : p.text.utf8ByteSize < FileTree.pathBound

namespace Path.Legal

variable {p : Path} {name other : String}

/-- Where there is room for a name, there is room for one that is not longer. -/
theorem join_of_le (legal : (p.join name).Legal) (h : IsFileName name) (h' : IsFileName other)
    (unbroken : '\x00' ∉ other.toList) (size : other.utf8ByteSize ≤ name.utf8ByteSize) :
    (p.join other).Legal := by
  refine ⟨Path.text_join_ne_empty h', ?_, ?_⟩
  · rw [Path.mem_join h'.plain (by decide), not_or]
    refine ⟨fun zero => legal.unbroken ?_, unbroken⟩
    exact (Path.mem_join h.plain (by decide)).mpr (Or.inl zero)
  · have short := legal.short
    rw [Path.utf8ByteSize_join h.plain] at short
    rw [Path.utf8ByteSize_join h'.plain]
    omega

theorem of_join (legal : (p.join name).Legal) (h : IsFileName name) (full : p.text ≠ "") :
    p.Legal := by
  refine ⟨full, fun zero => legal.unbroken ?_, ?_⟩
  · exact (Path.mem_join h.plain (by decide)).mpr (Or.inl zero)
  · have short := legal.short
    rw [Path.utf8ByteSize_join h.plain] at short
    have size := Path.utf8ByteSize_le_lead (p := p)
    omega

end Path.Legal

namespace FileTree

variable {t t' t'' : FileTree} {p : Path} {name : String} {w place place' : List String}
  {front back pieces : List String} {node : Node} {content : Option ByteArray}

def start (t : FileTree) (p : Path) : List String := if p.isAbsolute then [] else t.home

/-- A path leads to a directory. -/
structure Leads (t : FileTree) (p : Path) (w : List String) : Prop where
  walk : t.walk (t.start p) p.stem = .ok w
  directory : t.node? w = some .directory

/-- Every directory of a tree is one of another. -/
structure Keeps (t t' : FileTree) : Prop where
  home : t'.home = t.home
  directory : ∀ place, t.node? place = some .directory → t'.node? place = some .directory

/-! ## Walking -/

theorem walk_append :
    t.walk place (front ++ back) = t.walk place front >>= fun w => t.walk w back := by
  induction front generalizing place with
  | nil => rfl
  | cons piece front ih =>
      rw [List.cons_append, walk, walk]
      split
      · rfl
      · rfl
      · split
        · exact ih
        · split
          · exact ih
          · split
            · rfl
            · exact ih

theorem walk_name (h : IsFileName name) (size : name.utf8ByteSize ≤ maxName)
    (directory : t.node? w = some .directory) : t.walk w [name] = .ok (w ++ [name]) := by
  rw [walk, directory]
  simp [h.nonempty, h.notHere, h.notAbove, Nat.not_lt.mpr size, walk]

/-- A name is found in a directory only, and only if it is short enough. -/
theorem walk_name_eq_ok_iff (h : IsFileName name) : t.walk w [name] = .ok place ↔
    t.node? w = some .directory ∧ name.utf8ByteSize ≤ maxName ∧ place = w ++ [name] := by
  constructor
  · intro hw
    rw [walk] at hw
    split at hw
    · cases hw
    · cases hw
    · next directory =>
        rw [if_neg (by simp [h.nonempty, h.notHere]), if_neg h.notAbove] at hw
        split at hw
        · cases hw
        · next size =>
            rw [walk] at hw
            exact ⟨directory, Nat.not_lt.mp size, (Except.ok.inj hw).symm⟩
  · rintro ⟨directory, size, rfl⟩
    exact walk_name h size directory

/-- Pieces that lead nowhere can be left out before a piece. -/
theorem walk_filter : t.walk place (pieces.filter Path.leads ++ [name]) =
    t.walk place (pieces ++ [name]) := by
  induction pieces generalizing place with
  | nil => rfl
  | cons piece pieces ih =>
      by_cases leading : Path.leads piece = true
      · rw [List.filter_cons_of_pos leading, List.cons_append, List.cons_append, walk, walk]
        split
        · rfl
        · rfl
        · rw [ih, ih, ih]
      · rw [List.filter_cons_of_neg leading, ih, List.cons_append]
        have blank : (decide (piece = "") || decide (piece = ".")) = true := by
          simpa [Path.leads, or_iff_not_imp_left] using leading
        obtain ⟨next, rest, hrest⟩ := List.exists_cons_of_ne_nil
          (List.concat_ne_nil _ _)
        -- What the blank piece is taken from is looked at again for the piece that comes next.
        rw [hrest, walk.eq_2 t place next, walk.eq_2 t place piece, blank, if_pos rfl, walk]
        cases t.node? place with
        | none => rfl
        | some node => cases node <;> rfl

theorem walk_mono (keeps : t.Keeps t') (h : t.walk place pieces = .ok w) :
    t'.walk place pieces = .ok w := by
  induction pieces generalizing place with
  | nil => exact h
  | cons piece pieces ih =>
      rw [walk] at h ⊢
      split at h
      · cases h
      · cases h
      · next directory =>
          rw [keeps.directory _ directory]
          dsimp only
          split at h
          · next blank => rw [if_pos blank]; exact ih h
          · next blank =>
              rw [if_neg blank]
              split at h
              · next above => rw [if_pos above]; exact ih h
              · next above =>
                  rw [if_neg above]
                  split at h
                  · cases h
                  · next size => rw [if_neg size]; exact ih h

theorem walkFrom_eq_ok_iff :
    t.walkFrom p pieces = .ok w ↔ p.Legal ∧ t.walk (t.start p) pieces = .ok w := by
  unfold walkFrom
  constructor
  · intro h
    split at h
    · cases h
    · next unbroken =>
        split at h
        · cases h
        · next nonempty =>
            split at h
            · cases h
            · next short =>
                refine ⟨⟨?_, ?_, Nat.not_le.mp short⟩, h⟩
                · rwa [String.isEmpty_iff] at nonempty
                · rwa [List.contains_iff_mem] at unbroken
  · rintro ⟨legal, h⟩
    rw [if_neg (by rw [List.contains_iff_mem]; exact legal.unbroken),
      if_neg (by rw [String.isEmpty_iff]; exact legal.nonempty),
      if_neg (Nat.not_le.mpr legal.short)]
    exact h

/-! ## Directories that a path leads to -/

theorem Keeps.start (keeps : t.Keeps t') : t'.start p = t.start p := by
  unfold FileTree.start
  rw [keeps.home]

theorem Keeps.trans (keeps : t.Keeps t') (keeps' : t'.Keeps t'') : t.Keeps t'' :=
  ⟨keeps'.home.trans keeps.home, fun place h => keeps'.directory place (keeps.directory place h)⟩

namespace Leads

theorem mono (leads : t.Leads p w) (keeps : t.Keeps t') : t'.Leads p w := by
  refine ⟨?_, keeps.directory w leads.directory⟩
  rw [keeps.start]
  exact walk_mono keeps leads.walk

theorem unique {w' : List String} (leads : t.Leads p w) (leads' : t.Leads p w') : w = w' :=
  Except.ok.inj (leads.walk.symm.trans leads'.walk)

end Leads

/-- A path leads to a directory if a name joined to it has a place there. -/
theorem walk_stem_append_eq_ok_iff (h : IsFileName name) :
    t.walk (t.start p) (p.stem ++ [name]) = .ok place ↔
      name.utf8ByteSize ≤ maxName ∧ ∃ w, t.Leads p w ∧ place = w ++ [name] := by
  rw [walk_append, bind_eq_ok_iff]
  constructor
  · rintro ⟨w, hw, hplace⟩
    obtain ⟨directory, size, rfl⟩ := (walk_name_eq_ok_iff h).mp hplace
    exact ⟨size, w, ⟨hw, directory⟩, rfl⟩
  · rintro ⟨size, w, leads, rfl⟩
    exact ⟨w, leads.walk, walk_name h size leads.directory⟩

/-- **The parts of a path lead where the path does.** -/
theorem leads_ofParts : t.Leads (.ofParts p.parts) w ↔ t.Leads p w := by
  obtain ⟨absolute, pieces⟩ := Path.ofParts_parts p
  have begin : t.start (.ofParts p.parts) = t.start p := by
    unfold start
    rw [absolute]
  have walks : t.walk (t.start (.ofParts p.parts)) ((Path.ofParts p.parts).stem ++ ["x"]) =
      t.walk (t.start p) (p.stem ++ ["x"]) := by
    rw [begin, ← walk_filter, Path.filter_stem, pieces, ← Path.filter_stem, walk_filter]
  have named : IsFileName "x" := ⟨by decide, by decide, by decide, by decide⟩
  have size : "x".utf8ByteSize ≤ maxName := by decide
  constructor
  · intro leads
    obtain ⟨-, w', leads', hw⟩ := (walk_stem_append_eq_ok_iff named).mp
      (walks.symm.trans ((walk_stem_append_eq_ok_iff named).mpr ⟨size, w, leads, rfl⟩))
    rwa [List.append_cancel_right hw]
  · intro leads
    obtain ⟨-, w', leads', hw⟩ := (walk_stem_append_eq_ok_iff named).mp
      (walks.trans ((walk_stem_append_eq_ok_iff named).mpr ⟨size, w, leads, rfl⟩))
    rwa [List.append_cancel_right hw]

/-! ## Places of files in a directory -/

theorem start_join (h : '/' ∉ name.toList) : t.start (p.join name) = t.start p := by
  unfold start
  rw [Path.isAbsolute_join h]

/-- **A path joined with a name leads to the name in the directory that the path leads to.** -/
theorem place_join_eq_ok_iff (h : IsFileName name) : t.place (p.join name) = .ok place ↔
    (p.join name).Legal ∧ name.utf8ByteSize ≤ maxName ∧ ∃ w, t.Leads p w ∧ place = w ++ [name] := by
  unfold FileTree.place
  rw [walkFrom_eq_ok_iff, start_join h.plain, Path.pieces_join h.plain,
    walk_stem_append_eq_ok_iff h]

/-- Paths of the same parts have the same place, if both can have one. -/
theorem place_of_parts_eq {q : Path} {other : String} (h : IsFileName name)
    (h' : IsFileName other) (same : (p.join name).parts = (q.join other).parts)
    (hplace : t.place (p.join name) = .ok place) (legal : (q.join other).Legal) :
    t.place (q.join other) = .ok place := by
  rw [Path.parts_join h, Path.parts_join h'] at same
  obtain ⟨parts, rfl⟩ := List.append_singleton_inj.mp same
  obtain ⟨-, size, w, leads, rfl⟩ := (place_join_eq_ok_iff h).mp hplace
  refine (place_join_eq_ok_iff h').mpr ⟨legal, size, w, ?_, rfl⟩
  rw [← leads_ofParts, ← parts, leads_ofParts]
  exact leads

theorem place_mono (keeps : t.Keeps t') (h : t.place p = .ok place) : t'.place p = .ok place := by
  unfold FileTree.place at h ⊢
  rw [walkFrom_eq_ok_iff] at h ⊢
  rw [keeps.start]
  exact ⟨h.1, walk_mono keeps h.2⟩

theorem node?_append (name : String) : t.node? (w ++ [name]) = t.nodes.find? (w ++ [name]) := by
  unfold node?
  rw [if_neg (by simp)]

end FileTree

end TemporalDB
