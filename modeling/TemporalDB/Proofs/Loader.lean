import TemporalDB.Loader
import TemporalDB.Proofs.OrderedMap
import TemporalDB.Proofs.Outcome

/-!
# What a loader keeps open

Loading gives the unit that is kept open for the path, or else the one in the file, if it has the
entry points that are asked for. At most that unit is kept open from then on.
-/

namespace TemporalDB

namespace Loader

variable {l l' : Loader} {files : FileTree} {path : Path} {symbols : List String}
  {parts : List String} {o : OpenUnit}

/-- A unit is read if it is decoded from the bytes of the file. -/
theorem readUnit_eq_ok_iff {u : CompiledUnit} : readUnit files path = .ok u ↔
    ∃ bytes, files.read path = .ok bytes ∧ CompiledUnit.ofBytes bytes = .ok u := by
  unfold readUnit
  cases files.read path with
  | error e => exact ⟨nofun, nofun⟩
  | ok bytes =>
      change (CompiledUnit.ofBytes bytes).mapError _ = .ok u ↔ _
      cases decoded : CompiledUnit.ofBytes bytes with
      | error e =>
          refine ⟨nofun, ?_⟩
          rintro ⟨_, ⟨⟩, h⟩
          cases decoded.symm.trans h
      | ok u' =>
          constructor
          · rintro ⟨⟩
            exact ⟨bytes, rfl, decoded⟩
          · rintro ⟨_, ⟨⟩, h⟩
            cases decoded.symm.trans h
            rfl

theorem isCorruption_of_readUnit {e : LoadError} (h : readUnit files path = .error e) :
    e.isCorruption = true := by
  obtain read | ⟨bytes, -, decoded⟩ := bind_eq_error_iff.mp h
  · cases found : files.read path with
    | error cause =>
        rw [found] at read
        cases read
        rfl
    | ok bytes =>
        rw [found] at read
        cases read
  · cases found : CompiledUnit.ofBytes bytes with
    | error cause =>
        rw [found] at decoded
        cases decoded
        rfl
    | ok u =>
        rw [found] at decoded
        cases decoded

/-- A unit can be loaded: it is found, and it has every entry point that is asked for. -/
structure Loads (l : Loader) (files : FileTree) (path : Path) (symbols : List String)
    (o : OpenUnit) : Prop where
  found : l.find files path = .ok o
  provides : ∀ s ∈ symbols, o.unit.provides s = true

def keep (l : Loader) (path : Path) (o : OpenUnit) : Loader :=
  let kept := if (l.kept.find? path.parts).isSome then l
    else if l.keepOpen then { l with kept := l.kept.insert path.parts o, reads := l.reads + 1 }
    else { l with reads := l.reads + 1 }
  { kept with live := o.serial :: kept.live }

theorem load_eq_ok (h : l.Loads files path symbols o) :
    l.load files path symbols = (.ok ⟨path, o.serial, o.unit, symbols⟩, l.keep path o) := by
  have complete : symbols.find? (fun s => !o.unit.provides s) = none := by
    rw [List.find?_eq_none]
    intro s hs
    rw [h.provides s hs]
    exact Bool.false_ne_true
  unfold load
  rw [h.found]
  dsimp only
  rw [complete]
  rfl

/-- **Loading gives a unit that has what is asked for, or leaves the loader as it is.** -/
theorem load_cases (l : Loader) (files : FileTree) (path : Path) (symbols : List String) :
    (∃ o, l.Loads files path symbols o ∧
      l.load files path symbols = (.ok ⟨path, o.serial, o.unit, symbols⟩, l.keep path o)) ∨
    ∃ e, l.load files path symbols = (.error e, l) := by
  cases found : l.find files path with
  | error e =>
      refine Or.inr ⟨e, ?_⟩
      unfold load
      rw [found]
  | ok o =>
      cases missing : symbols.find? fun s => !o.unit.provides s with
      | some s =>
          refine Or.inr ⟨.symbolMissing s path, ?_⟩
          unfold load
          rw [found]
          dsimp only
          rw [missing]
      | none =>
          have loads : l.Loads files path symbols o := by
            refine ⟨found, ?_⟩
            intro s hs
            have present := List.find?_eq_none.mp missing s hs
            simpa using present
          exact Or.inl ⟨o, loads, load_eq_ok loads⟩

/-- **A load that fails leaves the loader as it is.** -/
theorem eq_of_load_error {e : LoadError} (h : l.load files path symbols = (.error e, l')) :
    l' = l := by
  rcases l.load_cases files path symbols with ⟨o, -, done⟩ | ⟨e, failed⟩
  · cases done.symm.trans h
  · cases failed.symm.trans h
    rfl

theorem isCorruption_of_load {e : LoadError} (h : (l.load files path symbols).1 = .error e) :
    e.isCorruption = true := by
  unfold load at h
  cases found : l.find files path with
  | error e' =>
      rw [found] at h
      cases h
      unfold find at found
      split at found
      · cases found
      · cases read : readUnit files path with
        | error cause =>
            rw [read] at found
            cases found
            exact isCorruption_of_readUnit read
        | ok u =>
            rw [read] at found
            cases found
  | ok o =>
      rw [found] at h
      dsimp only at h
      split at h
      · cases h
        rfl
      · cases h

theorem find_of_kept (h : l.kept.find? path.parts = some o) : l.find files path = .ok o := by
  unfold find
  rw [h]

/-- What is kept open was kept open before, or is the unit that was found. -/
theorem find?_keep {kept : OpenUnit} (h : (l.keep path o).kept.find? parts = some kept) :
    l.kept.find? parts = some kept ∨ parts = path.parts ∧ kept = o ∧
      l.kept.find? path.parts = none := by
  unfold keep at h
  dsimp only at h
  split at h
  · exact Or.inl h
  · next absent =>
      have nothing : l.kept.find? path.parts = none := by
        rwa [Option.not_isSome_iff_eq_none] at absent
      split at h
      · by_cases same : parts = path.parts
        · subst same
          rw [OrderedMap.find?_insert_self] at h
          exact Or.inr ⟨rfl, (Option.some.inj h).symm, nothing⟩
        · rw [OrderedMap.find?_insert_of_ne same] at h
          exact Or.inl h
      · exact Or.inl h

theorem find?_keep_self (keeps : l.keepOpen = true) (absent : l.kept.find? path.parts = none) :
    (l.keep path o).kept.find? path.parts = some o := by
  unfold keep
  rw [absent, keeps]
  exact OrderedMap.find?_insert_self

theorem keep_of_kept {o' : OpenUnit} (h : l.kept.find? path.parts = some o') :
    l.keep path o = { l with live := o.serial :: l.live } := by
  unfold keep
  rw [h]
  rfl

theorem keep_of_absent (h : l.kept.find? path.parts = none) :
    l.keep path o = ⟨l.keepOpen, if l.keepOpen then l.kept.insert path.parts o else l.kept,
      l.reads + 1, o.serial :: l.live⟩ := by
  unfold keep
  rw [h, if_neg (by simp)]
  split
  · rfl
  · rfl

/-- A unit that was not kept open is kept open just if units are. -/
theorem find?_keep_iff (h : l.kept.find? path.parts = none) (parts : List String)
    (kept : OpenUnit) :
    (l.keep path o).kept.find? parts = some kept ↔
      l.kept.find? parts = some kept ∨ l.keepOpen = true ∧ parts = path.parts ∧ kept = o := by
  rw [keep_of_absent h]
  dsimp only
  cases keeps : l.keepOpen with
  | false =>
      rw [if_neg Bool.false_ne_true]
      exact (or_iff_left (by simp)).symm
  | true =>
      rw [if_pos rfl]
      by_cases same : parts = path.parts
      · subst same
        rw [OrderedMap.find?_insert_self, h]
        simp [eq_comm]
      · rw [OrderedMap.find?_insert_of_ne same]
        simp [same]

/-- What is kept open after a path was forgotten has another path and was kept open before. -/
theorem find?_invalidate (h : (l.invalidate path).kept.find? parts = some o) :
    parts ≠ path.parts ∧ l.kept.find? parts = some o := by
  unfold invalidate at h
  have ne : parts ≠ path.parts := by
    rintro rfl
    rw [OrderedMap.find?_erase_self] at h
    cases h
  rw [OrderedMap.find?_erase_of_ne ne] at h
  exact ⟨ne, h⟩

/-- A unit that was not kept open is the next one that is read, from the path that is asked for. -/
theorem eq_of_find (found : l.find files path = .ok o) (h : l.kept.find? path.parts = none) :
    ∃ u, readUnit files path = .ok u ∧ o = ⟨path, l.reads, u⟩ := by
  unfold find at found
  rw [h] at found
  dsimp only at found
  cases read : readUnit files path with
  | error e =>
      rw [read] at found
      cases found
  | ok u =>
      rw [read] at found
      cases found
      exact ⟨u, rfl, rfl⟩

theorem path_of_find (found : l.find files path = .ok o) (h : l.kept.find? path.parts = none) :
    o.path = path := by
  obtain ⟨u, -, rfl⟩ := eq_of_find found h
  rfl

theorem readUnit_of_find (found : l.find files path = .ok o) (h : l.kept.find? path.parts = none) :
    readUnit files path = .ok o.unit := by
  obtain ⟨u, read, rfl⟩ := eq_of_find found h
  exact read

/-- **A file is refused unless a unit with the entry point is decoded from it.** -/
theorem load_eq_error_iff {symbol : String} (h : l.kept.find? path.parts = none) :
    (∃ e, (l.load files path [symbol]).1 = .error e) ↔
      ∀ bytes u, files.read path = .ok bytes → CompiledUnit.ofBytes bytes = .ok u →
        u.provides symbol = false := by
  constructor
  · rintro ⟨e, failed⟩ bytes u read decoded
    by_contra provides
    have loads : l.Loads files path [symbol] ⟨path, l.reads, u⟩ := by
      refine ⟨?_, List.forall_mem_singleton.mpr (eq_true_of_ne_false provides)⟩
      unfold find
      rw [h, readUnit_eq_ok_iff.mpr ⟨bytes, read, decoded⟩]
      rfl
    rw [load_eq_ok loads] at failed
    cases failed
  · intro lacks
    rcases l.load_cases files path [symbol] with ⟨o, loads, -⟩ | ⟨e, failed⟩
    · obtain ⟨bytes, read, decoded⟩ := readUnit_eq_ok_iff.mp (readUnit_of_find loads.found h)
      have provides := loads.provides symbol List.mem_cons_self
      rw [lacks bytes _ read decoded] at provides
      cases provides
    · exact ⟨e, congrArg Prod.fst failed⟩

/-- **What was loaded is loaded again** from the same files, for whatever it provides. -/
theorem Loads.again (loads : l.Loads files path symbols o) (u : ExecutionUnit)
    (symbols' : List String) (provides : ∀ s ∈ symbols', o.unit.provides s = true) :
    ∃ o', ((l.keep path o).release u).Loads files path symbols' o' ∧ o'.unit = o.unit := by
  cases kept : l.kept.find? path.parts with
  | some o₀ =>
      cases (find_of_kept kept).symm.trans loads.found
      refine ⟨o, ⟨find_of_kept ?_, provides⟩, rfl⟩
      unfold release keep
      rw [kept]
      exact kept
  | none =>
      cases keeps : l.keepOpen with
      | true => exact ⟨o, ⟨find_of_kept (find?_keep_self keeps kept), provides⟩, rfl⟩
      | false =>
          refine ⟨⟨path, l.reads + 1, o.unit⟩, ⟨?_, provides⟩, rfl⟩
          unfold release keep find
          rw [kept, keeps]
          dsimp only
          rw [if_neg (by simp), if_neg (by simp)]
          dsimp only
          rw [kept, readUnit_of_find loads.found kept]
          rfl

end Loader

end TemporalDB
