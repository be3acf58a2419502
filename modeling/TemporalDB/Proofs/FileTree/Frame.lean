import TemporalDB.Proofs.FileTree.Directories

/-!
# What a change leaves alone

Two trees that have the same directories give a path the same place. Putting a file at a place, or
taking one away, leaves the directories and what is at every other place.
-/

namespace TemporalDB.FileTree

variable {t t' t'' : FileTree} {p : Path} {name : String} {w place : List String}
  {content : Option ByteArray} {bytes : ByteArray} {P Q : List String → Prop}

/-- The trees have the same directories, and the same files but at some places. -/
structure AgreesBut (t t' : FileTree) (P : List String → Prop) : Prop where
  keeps : t.Keeps t'
  kept : t'.Keeps t
  elsewhere : ∀ place, ¬ P place → t'.node? place = t.node? place

namespace AgreesBut

theorem refl (t : FileTree) (P : List String → Prop) : t.AgreesBut t P :=
  ⟨(Grows.refl t).toKeeps, (Grows.refl t).toKeeps, fun _ _ => rfl⟩

theorem trans (agrees : t.AgreesBut t' P) (agrees' : t'.AgreesBut t'' P) : t.AgreesBut t'' P :=
  ⟨agrees.keeps.trans agrees'.keeps, agrees'.kept.trans agrees.kept,
    fun place h => (agrees'.elsewhere place h).trans (agrees.elsewhere place h)⟩

theorem mono (agrees : t.AgreesBut t' P) (h : ∀ place, P place → Q place) : t.AgreesBut t' Q :=
  ⟨agrees.keeps, agrees.kept,
    fun place free => agrees.elsewhere place (mt (h place) free)⟩

theorem directory_iff (agrees : t.AgreesBut t' P) :
    t'.node? place = some .directory ↔ t.node? place = some .directory :=
  ⟨agrees.kept.directory place, agrees.keeps.directory place⟩

/-- **Paths lead to the same places.** -/
theorem place_iff (agrees : t.AgreesBut t' P) : t'.place p = .ok place ↔ t.place p = .ok place :=
  ⟨place_mono agrees.kept, place_mono agrees.keeps⟩

theorem leads_iff (agrees : t.AgreesBut t' P) : t'.Leads p w ↔ t.Leads p w :=
  ⟨fun leads => leads.mono agrees.kept, fun leads => leads.mono agrees.keeps⟩

/-- A file that is not at one of the places is read as before. -/
theorem read_iff (agrees : t.AgreesBut t' P)
    (elsewhere : ∀ place, t.place p = .ok place → ¬ P place) :
    t'.read p = .ok bytes ↔ t.read p = .ok bytes := by
  rw [read_eq_ok_iff, read_eq_ok_iff]
  apply exists_congr
  intro place
  rw [agrees.place_iff]
  apply and_congr_right
  intro hplace
  rw [agrees.elsewhere place (elsewhere place hplace)]

end AgreesBut

/-- Putting a file where there is no directory, or taking it away, changes nothing else. -/
theorem agreesBut_assign (content : Option ByteArray) (h : IsFileName name)
    (hplace : t.place (p.join name) = .ok place) (free : t.node? place ≠ some .directory) :
    t.AgreesBut (t.assign place content) (· = place) := by
  obtain ⟨-, -, w, leads, rfl⟩ := (place_join_eq_ok_iff h).mp hplace
  have full : w ++ [name] ≠ [] := List.concat_ne_nil _ _
  exact ⟨keeps_assign content full free, keeps_of_assign full,
    fun other ne => node?_assign_of_ne full ne⟩

theorem agreesBut_temporary [Tags] (content : Option ByteArray)
    (hplace : t.place (t.temporary p name) = .ok place) :
    t.AgreesBut (t.assign place content) (· = place) := by
  obtain ⟨⟨w, x, _, rfl, -⟩, nothing⟩ := place_temporary hplace
  obtain ⟨q, base, temporary⟩ := exists_temporary p name
  obtain ⟨path, named⟩ := temporary t
  rw [path] at hplace
  refine agreesBut_assign content named hplace ?_
  rw [node?_append, nothing]
  exact (Option.some_ne_none _).symm

theorem agreesBut_discard (h : IsFileName name) :
    t.AgreesBut (t.discard (p.join name)) (t.place (p.join name) = .ok ·) := by
  rcases discard_cases t (p.join name) with same | ⟨place, bytes, hplace, hnode, gone⟩
  · rw [same]
    exact AgreesBut.refl t _
  · rw [gone]
    refine (agreesBut_assign none h hplace (by rw [hnode]; simp)).mono ?_
    rintro _ rfl
    exact hplace

/-! ## What is left at a path -/

theorem look_eq_of_place (hplace : t.place p = .ok place) : t.look p = t.node? place := by
  unfold look
  rw [hplace]
  rfl

theorem look_eq_none_of_error {e : IoError} (h : t.place p = .error e) : t.look p = none := by
  unfold look
  rw [h]
  rfl

theorem look_eq_some_iff {node : Node} : t.look p = some node ↔
    ∃ place, t.place p = .ok place ∧ t.node? place = some node := by
  cases hplace : t.place p with
  | error e =>
      rw [look_eq_none_of_error hplace]
      simp
  | ok place =>
      rw [look_eq_of_place hplace]
      simp

theorem AgreesBut.look_eq_directory_iff (agrees : t.AgreesBut t' P) :
    t'.look p = some .directory ↔ t.look p = some .directory := by
  rw [look_eq_some_iff, look_eq_some_iff]
  exact exists_congr fun place => and_congr agrees.place_iff agrees.directory_iff

/-- A path that had a place has the same one, and what is at its place now was there before. -/
structure SameAt (t t' : FileTree) (p : Path) : Prop where
  place : ∀ place, t.place p = .ok place → t'.place p = .ok place
  node : ∀ place, t'.place p = .ok place → t'.node? place = t.node? place

/-- What can be read can still be read when directories have been made. -/
theorem Grows.read (grows : t.Grows t') (h : t.read p = .ok bytes) : t'.read p = .ok bytes := by
  obtain ⟨place, hplace, hnode⟩ := read_eq_ok_iff.mp h
  exact read_eq_ok_iff.mpr
    ⟨place, place_mono grows.toKeeps hplace, (grows.file place bytes).mpr hnode⟩

/-- Making directories, none of them at a path, leaves what is there. -/
theorem Grows.sameAt (grows : t.Grows t') (free : t'.look p ≠ some .directory) : t.SameAt t' p := by
  refine ⟨fun place => place_mono grows.toKeeps, ?_⟩
  intro place hplace
  rw [look_eq_of_place hplace] at free
  cases before : t.node? place with
  | some node =>
      cases node with
      | directory => exact absurd (grows.directory place before) free
      | file bytes => exact (grows.file place bytes).mpr before
  | none =>
      cases after : t'.node? place with
      | none => rfl
      | some node =>
          cases node with
          | directory => exact absurd after free
          | file bytes =>
              rw [(grows.file place bytes).mp after] at before
              cases before

theorem AgreesBut.sameAt (agrees : t.AgreesBut t' P)
    (elsewhere : ∀ place, t.place p = .ok place → ¬ P place) : t.SameAt t' p :=
  ⟨fun _ => agrees.place_iff.mpr,
    fun place hplace => agrees.elsewhere place (elsewhere place (agrees.place_iff.mp hplace))⟩

theorem SameAt.trans (same : t.SameAt t' p) (same' : t'.SameAt t'' p)
    (kept : ∀ place, t''.place p = .ok place → t'.place p = .ok place) : t.SameAt t'' p :=
  ⟨fun place h => same'.place place (same.place place h),
    fun place h => (same'.node place h).trans (same.node place (kept place h))⟩

theorem read_discard (h : IsFileName name) :
    (t.discard (p.join name)).read (p.join name) ≠ .ok bytes := by
  intro hread
  obtain ⟨place, hplace, hnode⟩ := read_eq_ok_iff.mp hread
  have agrees := agreesBut_discard (t := t) (p := p) h
  have hplace' := agrees.place_iff.mp hplace
  rcases discard_cases t (p.join name) with same | ⟨target, content, htarget, -, gone⟩
  · -- what could not be taken away was no file
    rw [same] at hnode
    have gone := discard_of_file hplace' hnode
    rw [same] at gone
    obtain ⟨-, -, w, -, rfl⟩ := (place_join_eq_ok_iff h).mp hplace'
    rw [gone, node?_assign_self] at hnode
    cases hnode
  · cases hplace'.symm.trans htarget
    obtain ⟨-, -, w, -, rfl⟩ := (place_join_eq_ok_iff h).mp hplace'
    rw [gone, node?_assign_self] at hnode
    cases hnode

/-- Where there is no directory, there is nothing once the file is gone. -/
theorem look_discard (h : IsFileName name) (free : t.look (p.join name) ≠ some .directory) :
    (t.discard (p.join name)).look (p.join name) = none := by
  cases hplace : t.place (p.join name) with
  | error e =>
      rcases discard_cases t (p.join name) with same | ⟨place, -, found, -⟩
      · rw [same]
        exact look_eq_none_of_error hplace
      · exact absurd (hplace.symm.trans found) (by simp)
  | ok place =>
      rw [look_eq_of_place hplace] at free
      rw [look_eq_of_place ((agreesBut_discard h).place_iff.mpr hplace)]
      cases found : t.node? place with
      | none =>
          rcases discard_cases t (p.join name) with same | ⟨place', _, hplace', hnode, -⟩
          · rw [same, found]
          · cases hplace.symm.trans hplace'
            cases found.symm.trans hnode
      | some node =>
          cases node with
          | directory => exact absurd found free
          | file bytes =>
              obtain ⟨-, -, w, -, rfl⟩ := (place_join_eq_ok_iff h).mp hplace
              rw [discard_of_file hplace found, node?_assign_self]
              rfl

end TemporalDB.FileTree
