import Mathlib.Data.List.Perm.Basic
import TemporalDB.Proofs.Loader

/-!
# Handles of loaded units

A loaded unit is in use until it is unloaded or dropped. If its loader keeps units open, it shares
the one that is open for its path, until the loader forgets that path or is shut down. Here the
units in use are followed through any sequence of requests and changes of files, and what a shutdown
reports is compared with them.
-/

namespace TemporalDB.Loader

inductive Action where
  | load (path : Path) (symbols : List String)
  /-- One of the units in use is unloaded, or dropped. -/
  | release (index : Nat)
  | invalidate (path : Path)
  | shutdown
  | change (files : FileTree)

/-- Whether an action closes the unit that is kept open for the path with these parts. -/
def Action.closes (parts : List String) : Action → Bool
  | .invalidate path => parts = path.parts
  | .shutdown => true
  | _ => false

/-- A loaded unit in use, and what was done since it was loaded, the latest first. -/
structure Handle where
  unit : ExecutionUnit
  since : List Action

namespace Handle

def parts (h : Handle) : List String := h.unit.path.parts

/-- Whether the unit is one that the loader keeps open: it was kept open when it was loaded, and
nothing that was done since closed it. -/
def shares (keepOpen : Bool) (h : Handle) : Bool :=
  keepOpen && h.since.all fun a => !a.closes h.parts

def after (a : Action) (h : Handle) : Handle := { h with since := a :: h.since }

end Handle

/-- A loader, the files, and the units in use. -/
structure Holdings where
  loader : Loader
  files : FileTree
  held : List Handle

namespace Holdings

def start (keepOpen : Bool) (files : FileTree) : Holdings := ⟨.new keepOpen, files, []⟩

def step (s : Holdings) (a : Action) : Holdings :=
  let s := { s with held := s.held.map (·.after a) }
  match a with
  | .load path symbols =>
    match s.loader.load s.files path symbols with
    | (.error _, loader) => { s with loader }
    | (.ok u, loader) => { s with loader, held := ⟨u, []⟩ :: s.held }
  | .release index =>
    match s.held[index]? with
    | none => s
    | some h => { s with loader := s.loader.release h.unit, held := s.held.eraseIdx index }
  | .invalidate path => { s with loader := s.loader.invalidate path }
  | .shutdown => { s with loader := s.loader.shutdown.2 }
  | .change files => { s with files }

def run (s : Holdings) (actions : List Action) : Holdings := actions.foldl step s

/-- The number of units in use that share the one kept open for the path with these parts. -/
def sharing (s : Holdings) (keepOpen : Bool) (parts : List String) : Nat :=
  s.held.countP fun h => h.shares keepOpen && decide (h.parts = parts)

end Holdings

variable {keepOpen : Bool} {l : Loader} {files : FileTree} {s : Holdings} {a : Action} {h : Handle}
  {path : Path} {symbols parts : List String} {o : OpenUnit} {index : Nat}

theorem Handle.shares_after :
    (h.after a).shares keepOpen = (h.shares keepOpen && !a.closes h.parts) := by
  change (keepOpen && (!a.closes h.parts && _)) = (keepOpen && _ && !a.closes h.parts)
  rw [Bool.and_comm (!a.closes h.parts), ← Bool.and_assoc]
  rfl

theorem shutdown_snd (l : Loader) : l.shutdown.2 = { l with kept := .empty } := by
  unfold shutdown
  dsimp only
  split
  · rfl
  · rfl

theorem Holdings.run_append (s : Holdings) (actions later : List Action) :
    s.run (actions ++ later) = (s.run actions).run later :=
  List.foldl_append

theorem Holdings.run_snoc (s : Holdings) (actions : List Action) (a : Action) :
    s.run (actions ++ [a]) = (s.run actions).step a :=
  s.run_append actions [a]

theorem Holdings.step_load (loads : s.loader.Loads s.files path symbols o) :
    s.step (.load path symbols) = ⟨s.loader.keep path o, s.files,
      ⟨⟨path, o.serial, o.unit, symbols⟩, []⟩ :: s.held.map (·.after (.load path symbols))⟩ := by
  unfold Holdings.step
  dsimp only
  rw [load_eq_ok loads]

/-! ## The invariant -/

/-- The serials in use are those of the handles, and a unit that is kept open has the serial of just
the handles that share it. -/
structure Accounted (keepOpen : Bool) (s : Holdings) : Prop where
  keeps : s.loader.keepOpen = keepOpen
  live : s.loader.live.Perm (s.held.map (·.unit.serial))
  known : ∀ h ∈ s.held, h.unit.serial < s.loader.reads
  kept : ∀ parts o, s.loader.kept.find? parts = some o →
    keepOpen = true ∧ o.path.parts = parts ∧ o.serial < s.loader.reads
  distinct : ∀ parts parts' o o', s.loader.kept.find? parts = some o →
    s.loader.kept.find? parts' = some o' → o.serial = o'.serial → parts = parts'
  shared : ∀ h ∈ s.held, ∀ parts, h.shares keepOpen = true ∧ parts = h.parts ↔
    ∃ o, s.loader.kept.find? parts = some o ∧ o.serial = h.unit.serial

namespace Accounted

theorem start (keepOpen : Bool) (files : FileTree) :
    Accounted keepOpen (.start keepOpen files) := by
  refine ⟨rfl, .refl _, ?_, ?_, ?_, ?_⟩
  · intro h held
    cases held
  · intro parts o hopen
    cases hopen
  · intro parts parts' o o' hopen
    cases hopen
  · intro h held
    cases held

/-- Closing units leaves the accounts in order, as far as it is what the action does. -/
theorem close (acc : Accounted keepOpen s) (l : Loader) (files : FileTree)
    (keeps : l.keepOpen = s.loader.keepOpen) (live : l.live = s.loader.live)
    (reads : l.reads = s.loader.reads)
    (found : ∀ parts, l.kept.find? parts =
      if a.closes parts then none else s.loader.kept.find? parts) :
    Accounted keepOpen ⟨l, files, s.held.map (·.after a)⟩ := by
  have open_of {parts : List String} {o : OpenUnit} (h : l.kept.find? parts = some o) :
      a.closes parts = false ∧ s.loader.kept.find? parts = some o := by
    rw [found] at h
    split at h
    · cases h
    · next still => exact ⟨eq_false_of_ne_true still, h⟩
  refine ⟨keeps.trans acc.keeps, ?_, ?_, ?_, ?_, ?_⟩
  · change l.live.Perm _
    rw [live, List.map_map]
    exact acc.live
  · intro _ mem
    obtain ⟨h, held, rfl⟩ := List.mem_map.mp mem
    exact reads ▸ acc.known h held
  · intro parts o hopen
    exact reads ▸ acc.kept parts o (open_of hopen).2
  · intro parts parts' o o' hopen hopen'
    exact acc.distinct parts parts' o o' (open_of hopen).2 (open_of hopen').2
  · intro _ mem parts
    obtain ⟨h, held, rfl⟩ := List.mem_map.mp mem
    have before := acc.shared h held parts
    -- a handle shares on if it did before and its unit was not closed
    rw [Handle.shares_after, Bool.and_eq_true, Bool.not_eq_true']
    constructor
    · rintro ⟨⟨shares, still⟩, rfl⟩
      obtain ⟨o, hopen, serial⟩ := before.mp ⟨shares, rfl⟩
      refine ⟨o, ?_, serial⟩
      change l.kept.find? h.parts = some o
      rwa [found, if_neg (by simp [still])]
    · rintro ⟨o, hopen, serial⟩
      obtain ⟨still, hopen⟩ := open_of hopen
      obtain ⟨shares, rfl⟩ := before.mpr ⟨o, hopen, serial⟩
      exact ⟨⟨shares, still⟩, rfl⟩

theorem observe (acc : Accounted keepOpen s) (nothing : ∀ parts, a.closes parts = false)
    (files : FileTree) : Accounted keepOpen ⟨s.loader, files, s.held.map (·.after a)⟩ := by
  refine acc.close s.loader files rfl rfl rfl ?_
  intro parts
  rw [nothing parts]
  exact (if_neg Bool.false_ne_true).symm

theorem reuse (acc : Accounted keepOpen s) (hopen : s.loader.kept.find? path.parts = some o) :
    Accounted keepOpen ⟨s.loader.keep path o, s.files,
      ⟨⟨path, o.serial, o.unit, symbols⟩, []⟩ :: s.held⟩ := by
  obtain ⟨keeps, -, known⟩ := acc.kept _ _ hopen
  rw [keep_of_kept hopen]
  refine ⟨acc.keeps, acc.live.cons _, ?_, acc.kept, acc.distinct, ?_⟩
  · exact List.forall_mem_cons.mpr ⟨known, acc.known⟩
  · refine List.forall_mem_cons.mpr ⟨?_, acc.shared⟩
    intro parts
    constructor
    · rintro ⟨-, rfl⟩
      exact ⟨o, hopen, rfl⟩
    · rintro ⟨o', hopen', serial⟩
      exact ⟨by rw [keeps]; rfl, acc.distinct _ _ _ _ hopen' hopen serial⟩

/-- A unit that is read anew has a serial of its own, and is kept open if units are. -/
theorem read (acc : Accounted keepOpen s) {u : CompiledUnit}
    (absent : s.loader.kept.find? path.parts = none) :
    Accounted keepOpen ⟨s.loader.keep path ⟨path, s.loader.reads, u⟩, s.files,
      ⟨⟨path, s.loader.reads, u, symbols⟩, []⟩ :: s.held⟩ := by
  have opens := find?_keep_iff (o := ⟨path, s.loader.reads, u⟩) absent
  have old {parts : List String} {o : OpenUnit} (hopen : s.loader.kept.find? parts = some o) :
      o.serial < s.loader.reads := (acc.kept parts o hopen).2.2
  have reads : (s.loader.keep path ⟨path, s.loader.reads, u⟩).reads = s.loader.reads + 1 := by
    rw [keep_of_absent absent]
  -- The fields of `Accounted` in turn; a new serial number is greater than all known ones.
  refine ⟨?_, ?_, ?_, ?_, ?_, ?_⟩
  · change (s.loader.keep path _).keepOpen = keepOpen
    rw [keep_of_absent absent]
    exact acc.keeps
  · change (s.loader.keep path _).live.Perm _
    rw [keep_of_absent absent]
    exact acc.live.cons _
  · change ∀ h ∈ _ :: s.held, h.unit.serial < (s.loader.keep path _).reads
    rw [reads]
    exact List.forall_mem_cons.mpr
      ⟨Nat.lt_succ_self _, fun h held => Nat.lt_succ_of_lt (acc.known h held)⟩
  · intro parts o hopen
    change _ ∧ _ ∧ o.serial < (s.loader.keep path _).reads
    rw [reads]
    rcases (opens parts o).mp hopen with before | ⟨keeps, rfl, rfl⟩
    · obtain ⟨keeps, hpath, known⟩ := acc.kept parts o before
      exact ⟨keeps, hpath, Nat.lt_succ_of_lt known⟩
    · exact ⟨acc.keeps.symm.trans keeps, rfl, Nat.lt_succ_self _⟩
  · intro parts parts' o o' hopen hopen' serial
    rcases (opens parts o).mp hopen with before | ⟨-, rfl, rfl⟩
    · rcases (opens parts' o').mp hopen' with before' | ⟨-, rfl, rfl⟩
      · exact acc.distinct _ _ _ _ before before' serial
      · exact absurd serial (Nat.ne_of_lt (old before))
    · rcases (opens parts' o').mp hopen' with before' | ⟨-, rfl, rfl⟩
      · exact absurd serial.symm (Nat.ne_of_lt (old before'))
      · rfl
  · refine List.forall_mem_cons.mpr ⟨?_, ?_⟩
    · intro parts
      constructor
      · rintro ⟨shares, rfl⟩
        have keeps : keepOpen = true := (Bool.and_eq_true_iff.mp shares).1
        exact ⟨_, (opens _ _).mpr (Or.inr ⟨acc.keeps.trans keeps, rfl, rfl⟩), rfl⟩
      · rintro ⟨o, hopen, serial⟩
        rcases (opens parts o).mp hopen with before | ⟨keeps, rfl, rfl⟩
        · exact absurd serial (Nat.ne_of_lt (old before))
        · exact ⟨by rw [← acc.keeps, keeps]; rfl, rfl⟩
    · intro h held parts
      rw [acc.shared h held parts]
      constructor
      · rintro ⟨o, hopen, serial⟩
        exact ⟨o, (opens _ _).mpr (Or.inl hopen), serial⟩
      · rintro ⟨o, hopen, serial⟩
        rcases (opens parts o).mp hopen with before | ⟨-, rfl, rfl⟩
        · exact ⟨o, before, serial⟩
        · exact absurd serial.symm (Nat.ne_of_lt (acc.known h held))

/-- **A loaded unit is accounted for**, whether it was kept open or is read from its file. -/
theorem load (acc : Accounted keepOpen s) (loads : s.loader.Loads s.files path symbols o) :
    Accounted keepOpen ⟨s.loader.keep path o, s.files,
      ⟨⟨path, o.serial, o.unit, symbols⟩, []⟩ :: s.held⟩ := by
  cases present : s.loader.kept.find? path.parts with
  | some o' =>
      cases (find_of_kept present).symm.trans loads.found
      exact acc.reuse present
  | none =>
      obtain ⟨u, -, rfl⟩ := eq_of_find loads.found present
      exact acc.read present

theorem release (acc : Accounted keepOpen s) (found : s.held[index]? = some h) :
    Accounted keepOpen
      ⟨s.loader.release h.unit, s.files, s.held.eraseIdx index⟩ := by
  obtain ⟨inside, here⟩ := List.getElem?_eq_some_iff.mp found
  have held (h' : Handle) (mem : h' ∈ s.held.eraseIdx index) : h' ∈ s.held :=
    List.mem_of_mem_eraseIdx mem
  refine ⟨acc.keeps, ?_, fun h' mem => acc.known h' (held h' mem), acc.kept, acc.distinct,
    fun h' mem => acc.shared h' (held h' mem)⟩
  have split : s.held.Perm (h :: s.held.eraseIdx index) := by
    rw [← here]
    exact (List.getElem_cons_eraseIdx_perm inside).symm
  have live := (acc.live.trans (split.map (·.unit.serial))).erase h.unit.serial
  rwa [List.map_cons, List.erase_cons_head] at live

/-- **Every action leaves the accounts in order.** -/
theorem step (acc : Accounted keepOpen s) (a : Action) : Accounted keepOpen (s.step a) := by
  cases a with
  | load path symbols =>
      have acc := acc.observe (a := .load path symbols) (fun _ => rfl) s.files
      rcases s.loader.load_cases s.files path symbols with ⟨o, loads, -⟩ | ⟨e, failed⟩
      · rw [Holdings.step_load loads]
        exact acc.load loads
      · unfold Holdings.step
        dsimp only
        rw [failed]
        exact acc
  | release index =>
      have acc := acc.observe (a := .release index) (fun _ => rfl) s.files
      unfold Holdings.step
      dsimp only
      split
      · exact acc
      · next found => exact acc.release found
  | invalidate path =>
      refine acc.close (a := .invalidate path) (s.loader.invalidate path) s.files rfl rfl rfl ?_
      intro parts
      change (s.loader.kept.erase path.parts).find? parts = _
      by_cases same : parts = path.parts
      · rw [same, OrderedMap.find?_erase_self, if_pos (by simp [Action.closes])]
      · rw [OrderedMap.find?_erase_of_ne same, if_neg (by simp [Action.closes, same])]
  | shutdown =>
      have closed := acc.close (a := .shutdown) { s.loader with kept := .empty } s.files rfl rfl rfl
        fun _ => rfl
      rwa [← shutdown_snd] at closed
  | change files => exact acc.observe (a := .change files) (fun _ => rfl) files

end Accounted

theorem accounted_run (keepOpen : Bool) (files : FileTree) (actions : List Action) :
    Accounted keepOpen ((Holdings.start keepOpen files).run actions) := by
  induction actions using List.reverseRecOn with
  | nil => exact .start keepOpen files
  | append_singleton actions a ih =>
      rw [Holdings.run_snoc]
      exact ih.step a

/-! ## Shutdown -/

namespace Accounted

/-- A unit that is kept open counts the handles that share it. -/
theorem outstanding_eq (acc : Accounted keepOpen s) (hopen : s.loader.kept.find? parts = some o) :
    s.loader.outstanding o = s.sharing keepOpen parts := by
  unfold outstanding Holdings.sharing
  rw [acc.live.count_eq, List.count_eq_countP, List.countP_map]
  refine List.countP_congr ?_
  intro h held
  have shared := acc.shared h held parts
  constructor
  · intro serial
    obtain ⟨shares, same⟩ := shared.mpr ⟨o, hopen, (beq_iff_eq.mp serial).symm⟩
    simp [shares, same]
  · intro shares
    rw [Bool.and_eq_true, decide_eq_true_eq] at shares
    obtain ⟨o', hopen', serial⟩ := shared.mp ⟨shares.1, shares.2.symm⟩
    cases hopen.symm.trans hopen'
    exact beq_iff_eq.mpr serial.symm

/-- **A shutdown reports a unit that handles share, with their number, or there are none.** -/
theorem shutdown_cases (acc : Accounted keepOpen s) :
    s.loader.shutdown.1 = .ok () ∧ (∀ h ∈ s.held, h.shares keepOpen = false) ∨
    ∃ path, s.loader.shutdown.1 = .error (.inUse path (s.sharing keepOpen path.parts)) ∧
      0 < s.sharing keepOpen path.parts := by
  have values {o : OpenUnit} : o ∈ s.loader.kept.values ↔
      ∃ parts, s.loader.kept.find? parts = some o := by
    simp [OrderedMap.values, OrderedMap.find?_eq_some_iff]
  unfold shutdown
  dsimp only
  cases found : s.loader.kept.values.find? fun o => s.loader.outstanding o ≠ 0 with
  | none =>
      refine Or.inl ⟨rfl, ?_⟩
      intro h held
      by_contra shares
      rw [Bool.not_eq_false] at shares
      obtain ⟨o, hopen, -⟩ := (acc.shared h held h.parts).mp ⟨shares, rfl⟩
      have unused := List.find?_eq_none.mp found o (values.mpr ⟨_, hopen⟩)
      rw [acc.outstanding_eq hopen, decide_eq_true_eq, not_not] at unused
      have used : 0 < s.sharing keepOpen h.parts :=
        List.countP_pos_iff.mpr ⟨h, held, by simp [shares]⟩
      exact absurd unused (Nat.ne_of_gt used)
  | some o =>
      obtain ⟨parts, hopen⟩ := values.mp (List.mem_of_find?_eq_some found)
      have used := List.find?_some found
      dsimp only
      rw [acc.outstanding_eq hopen] at used ⊢
      obtain ⟨-, rfl, -⟩ := acc.kept parts o hopen
      exact Or.inr ⟨o.path, rfl, Nat.pos_of_ne_zero (of_decide_eq_true used)⟩

end Accounted

end TemporalDB.Loader
