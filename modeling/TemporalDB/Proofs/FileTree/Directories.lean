import Mathlib.Data.List.TakeWhile
import TemporalDB.Proofs.FileTree.Above
import TemporalDB.Proofs.FileTree.Temporary

/-!
# Making directories

When the directories of a path have been made, the path leads to a directory, every directory that
was there still is, and the files are the same. Making them once more changes nothing; nor does it
where one of them could not be made.
-/

namespace TemporalDB.FileTree

variable {t t' : FileTree} {p : Path} {name : String} {w place other : List String}
  {pieces : List String} {paths : List Path}

def addDirectory (t : FileTree) (place : List String) : FileTree :=
  { t with nodes := t.nodes.insert place .directory }

theorem find?_addDirectory : (t.addDirectory place).nodes.find? other =
    if other = place then some .directory else t.nodes.find? other := by
  have here : compare place other = .eq ↔ other = place :=
    Std.LawfulEqOrd.compare_eq_iff_eq.trans eq_comm
  exact (OrderedMap.find?_insert _ _ _ _).trans (if_congr here rfl rfl)

theorem node?_addDirectory : (t.addDirectory place).node? other =
    if other = place then some .directory else t.node? other := by
  unfold node?
  by_cases root : other = []
  · subst root
    simp
  · have branch : ¬ other.isEmpty = true := mt List.isEmpty_iff.mp root
    rw [if_neg branch, if_neg branch, find?_addDirectory]

theorem keeps_addDirectory : t.Keeps (t.addDirectory place) := by
  refine ⟨rfl, ?_⟩
  intro other directory
  rw [node?_addDirectory]
  split
  · rfl
  · exact directory

/-- A tree got directories where there was nothing, and nothing else. -/
structure Grows (t t' : FileTree) : Prop extends t.Keeps t' where
  file : ∀ place bytes, t'.node? place = some (.file bytes) ↔ t.node? place = some (.file bytes)

theorem Grows.refl (t : FileTree) : t.Grows t := ⟨⟨rfl, fun _ h => h⟩, fun _ _ => Iff.rfl⟩

theorem Grows.trans {t'' : FileTree} (grows : t.Grows t') (grows' : t'.Grows t'') : t.Grows t'' :=
  ⟨grows.toKeeps.trans grows'.toKeeps,
    fun place bytes => (grows'.file place bytes).trans (grows.file place bytes)⟩

theorem grows_addDirectory (nothing : t.node? (w ++ [name]) = none) :
    t.Grows (t.addDirectory (w ++ [name])) := by
  refine ⟨keeps_addDirectory, ?_⟩
  intro place bytes
  rw [node?_addDirectory]
  split
  · next same =>
      rw [same, nothing]
      simp
  · rfl

/-! ## Blank pieces -/

/-- A piece between two slashes, or after the last one, stays at a directory. -/
theorem walk_blank_eq_ok_iff :
    t.walk w [""] = .ok place ↔ t.node? w = some .directory ∧ place = w := by
  rw [walk]
  split
  · next nothing => simp [nothing]
  · next file => simp [file]
  · next directory =>
      constructor
      · intro h
        exact ⟨directory, (Except.ok.inj h).symm⟩
      · rintro ⟨-, rfl⟩
        rfl

theorem walk_blanks (blank : ∀ piece ∈ pieces, piece = "") (h : t.walk w pieces = .ok place) :
    place = w := by
  induction pieces with
  | nil => exact (Except.ok.inj h).symm
  | cons piece pieces ih =>
      obtain ⟨rfl, hpieces⟩ := List.forall_mem_cons.mp blank
      rw [← List.singleton_append, walk_append, bind_eq_ok_iff] at h
      obtain ⟨v, hv, h⟩ := h
      obtain ⟨-, rfl⟩ := walk_blank_eq_ok_iff.mp hv
      exact ih hpieces h

theorem walk_blanks_of_directory (blank : ∀ piece ∈ pieces, piece = "")
    (directory : t.node? w = some .directory) : t.walk w pieces = .ok w := by
  induction pieces with
  | nil => rfl
  | cons piece pieces ih =>
      obtain ⟨rfl, hpieces⟩ := List.forall_mem_cons.mp blank
      rw [← List.singleton_append, walk_append, walk_blank_eq_ok_iff.mpr ⟨directory, rfl⟩]
      exact ih hpieces

/-! ## Paths of directories -/

theorem leads_iff_walk_pieces (full : p.text ≠ "") : t.Leads p w ↔
    t.walk (t.start p) p.pieces = .ok w ∧ t.node? w = some .directory := by
  obtain ⟨-, pieces | pieces⟩ := Path.pieces_cases full
  · rw [pieces]
    exact ⟨fun leads => ⟨leads.walk, leads.directory⟩, fun h => ⟨h.1, h.2⟩⟩
  · rw [pieces, walk_append, bind_eq_ok_iff]
    constructor
    · intro leads
      exact ⟨⟨w, leads.walk, walk_blank_eq_ok_iff.mpr ⟨leads.directory, rfl⟩⟩, leads.directory⟩
    · rintro ⟨⟨v, hv, hw⟩, directory⟩
      obtain ⟨-, rfl⟩ := walk_blank_eq_ok_iff.mp hw
      exact ⟨hv, directory⟩

theorem leads_iff_walk_named (full : p.text ≠ "") (directory : t.node? w = some .directory) :
    t.Leads p w ↔ t.walk (t.start p) p.named = .ok w := by
  obtain ⟨blanks, hpieces, blank⟩ := p.exists_pieces
  rw [leads_iff_walk_pieces full, hpieces, walk_append, bind_eq_ok_iff]
  constructor
  · rintro ⟨⟨v, hv, hw⟩, -⟩
    rwa [walk_blanks blank hw]
  · intro h
    exact ⟨⟨w, h, walk_blanks_of_directory blank directory⟩, directory⟩

theorem isDirectory_iff : t.isDirectory p = true ↔ p.Legal ∧ ∃ w, t.Leads p w := by
  -- a path that has no place is no directory
  have look : t.isDirectory p = true ↔
      ∃ w, t.place p = .ok w ∧ t.node? w = some .directory := by
    unfold isDirectory look
    cases t.place p with
    | error e =>
        constructor
        · intro h
          cases h
        · rintro ⟨w, h, -⟩
          cases h
    | ok w =>
        have found : (Except.ok w : Except IoError (List String)).toOption.bind t.node? =
            t.node? w := rfl
        rw [found]
        constructor
        · intro h
          split at h
          · next directory => exact ⟨w, rfl, directory⟩
          · cases h
        · rintro ⟨w, h, directory⟩
          cases h
          rw [directory]
  rw [look]
  constructor
  · rintro ⟨w, hplace, directory⟩
    obtain ⟨legal, hw⟩ := walkFrom_eq_ok_iff.mp hplace
    exact ⟨legal, w, (leads_iff_walk_pieces legal.nonempty).mpr ⟨hw, directory⟩⟩
  · rintro ⟨legal, w, leads⟩
    obtain ⟨hw, directory⟩ := (leads_iff_walk_pieces legal.nonempty).mp leads
    exact ⟨w, walkFrom_eq_ok_iff.mpr ⟨legal, hw⟩, directory⟩

/-! ## Making a directory -/

theorem directory_of_walk_cons {piece : String} (h : t.walk w (piece :: pieces) = .ok place) :
    t.node? w = some .directory := by
  rw [walk] at h
  split at h
  · cases h
  · cases h
  · next directory => exact directory

theorem placeAbove_eq_ok_iff : t.placeAbove p = .ok w ↔
    p.Legal ∧ t.walk (t.start p) p.named.dropLast = .ok w ∧ t.node? w = some .directory := by
  unfold placeAbove
  rw [walkFrom_eq_ok_iff, walk_append, bind_eq_ok_iff]
  apply and_congr_right
  intro _
  constructor
  · rintro ⟨v, hv, hw⟩
    obtain ⟨directory, rfl⟩ := walk_blank_eq_ok_iff.mp hw
    exact ⟨hv, directory⟩
  · rintro ⟨hw, directory⟩
    exact ⟨w, hw, walk_blank_eq_ok_iff.mpr ⟨directory, rfl⟩⟩

theorem ne_empty_of_getLast?_named (h : p.named.getLast? = some name) : name ≠ "" := by
  unfold Path.named at h
  rw [List.getLast?_reverse] at h
  have blank := List.head?_dropWhile_not (fun s : String => decide (s = "")) p.pieces.reverse
  rw [h] at blank
  simpa using blank

/-- A directory is made in one that is there, where there was nothing, and then the path leads to
it. -/
theorem exists_of_makeDirectory (h : t.makeDirectory p = .ok t') :
    p.Legal ∧ ∃ w name, t.node? w = some .directory ∧ t.node? (w ++ [name]) = none ∧
      t' = t.addDirectory (w ++ [name]) ∧ t'.Leads p (w ++ [name]) := by
  obtain ⟨w, above, h⟩ := bind_eq_ok_iff.mp h
  obtain ⟨legal, hw, -⟩ := placeAbove_eq_ok_iff.mp above
  split at h
  · cases h
  · cases h
  · cases h
  · next name notHere notAbove last =>
      obtain ⟨place, hplace, h⟩ := bind_eq_ok_iff.mp h
      have plain : '/' ∉ name.toList := by
        obtain ⟨blanks, hpieces, -⟩ := p.exists_pieces
        apply Path.plain_of_mem_pieces (p := p)
        rw [hpieces]
        exact List.mem_append_left _ (List.mem_of_getLast? last)
      have named : IsFileName name :=
        ⟨plain, ne_empty_of_getLast?_named last, notHere, notAbove⟩
      obtain ⟨directory, size, rfl⟩ := (walk_name_eq_ok_iff named).mp hplace
      split at h
      · cases h
      · next nothing =>
          cases h
          have here : (t.addDirectory (w ++ [name])).node? (w ++ [name]) = some .directory := by
            rw [node?_addDirectory, if_pos rfl]
          refine ⟨legal, w, name, directory, Option.not_isSome_iff_eq_none.mp nothing, rfl, ?_⟩
          -- All but the last piece lead where they did before, and there the directory is new.
          refine (leads_iff_walk_named legal.nonempty here).mpr ?_
          have pieces : p.named = p.named.dropLast ++ [name] :=
            (List.dropLast_append_getLast? name last).symm
          rw [pieces, walk_append, keeps_addDirectory.start, walk_mono keeps_addDirectory hw]
          exact walk_name named size (keeps_addDirectory.directory w directory)

theorem makeDirectory_eq_ok (h : t.makeDirectory p = .ok t') :
    p.Legal ∧ t.Grows t' ∧ ∃ w, t'.Leads p w := by
  obtain ⟨legal, w, name, directory, nothing, rfl, leads⟩ := exists_of_makeDirectory h
  exact ⟨legal, grows_addDirectory nothing, w ++ [name], leads⟩

theorem leads_of_makeDirectory (h : t.makeDirectory p = .ok t') (nothing : t.node? place = none)
    (made : t'.node? place ≠ none) : t'.Leads p place := by
  obtain ⟨-, w, name, -, -, rfl, leads⟩ := exists_of_makeDirectory h
  rw [node?_addDirectory] at made
  split at made
  · next same => rwa [same]
  · exact absurd nothing made

theorem makeDirectory_of_leads (leads : t.Leads p w) (legal : p.Legal) :
    t.makeDirectory p = .error .alreadyExists := by
  have named := (leads_iff_walk_named legal.nonempty leads.directory).mp leads
  unfold makeDirectory
  -- a path that names nothing leads to where the walk begins
  rcases List.eq_nil_or_concat p.named with nothing | ⟨front, name, hname⟩
  · have above : t.placeAbove p = .ok w := by
      rw [nothing] at named
      refine placeAbove_eq_ok_iff.mpr ⟨legal, ?_, leads.directory⟩
      rwa [nothing]
    rw [above, nothing]
    rfl
  · rw [List.concat_eq_append] at hname
    rw [hname, walk_append, bind_eq_ok_iff] at named
    obtain ⟨v, hv, hw⟩ := named
    have above : t.placeAbove p = .ok v := by
      refine placeAbove_eq_ok_iff.mpr ⟨legal, ?_, directory_of_walk_cons hw⟩
      rwa [hname, List.dropLast_concat]
    rw [above, hname, List.getLast?_concat]
    dsimp only [bind, Except.bind]
    split
    · rfl
    · rfl
    · rfl
    · next x _ _ same =>
        cases same
        rw [hw]
        dsimp only
        rw [leads.directory]
        rfl

/-! ## Making the directories of a path -/

/-- The directories above are asked for only where one of them is missing. -/
theorem makeDirectories_of_ne {e : IoError} {paths : List Path}
    (failed : t.makeDirectory p = .error e) (there : e ≠ .notFound) :
    t.makeDirectories (p :: paths) = (if t.isDirectory p then .ok () else .error e, t) := by
  rw [makeDirectories, failed]
  cases e with
  | notFound => exact absurd rfl there
  | _ => rfl

/-- The directories above cannot be made; or they have been made, or were not asked for, and then
the first one is made, is there already or cannot be made. -/
theorem makeDirectories_cases (t : FileTree) (p : Path) (paths : List Path) :
    (∃ e s, t.makeDirectories paths = (.error e, s) ∧
        t.makeDirectories (p :: paths) = (.error e, s)) ∨
      ∃ s, (s = t ∨ t.makeDirectories paths = (.ok (), s)) ∧
        ((∃ made, s.makeDirectory p = .ok made ∧
            t.makeDirectories (p :: paths) = (.ok (), made)) ∨
          ∃ e, s.makeDirectory p = .error e ∧ t.makeDirectories (p :: paths) =
            (if s.isDirectory p then .ok () else .error e, s)) := by
  cases first : t.makeDirectory p with
  | ok made =>
      rw [makeDirectories, first]
      exact Or.inr ⟨t, Or.inl rfl, Or.inl ⟨made, first, rfl⟩⟩
  | error e =>
      by_cases missing : e = .notFound
      · subst missing
        rw [makeDirectories, first]
        dsimp only
        obtain ⟨result, s⟩ := t.makeDirectories paths
        cases result with
        | error e => exact Or.inl ⟨e, s, rfl, rfl⟩
        | ok _ =>
            refine Or.inr ⟨s, Or.inr rfl, ?_⟩
            dsimp only
            cases s.makeDirectory p with
            | ok made => exact Or.inl ⟨made, rfl, rfl⟩
            | error e => exact Or.inr ⟨e, rfl, rfl⟩
      · exact Or.inr ⟨t, Or.inl rfl, Or.inr ⟨e, first, makeDirectories_of_ne first missing⟩⟩

/-- **Nothing but directories is made**, whether all could be made or not. -/
theorem grows_makeDirectories (t : FileTree) (paths : List Path) :
    t.Grows (t.makeDirectories paths).2 := by
  induction paths with
  | nil => exact Grows.refl t
  | cons p paths ih =>
      rcases makeDirectories_cases t p paths with ⟨e, s, others, done⟩ | ⟨s, others, last⟩
      · rw [others] at ih
        rwa [done]
      · have grows : t.Grows s := by
          rcases others with rfl | others
          · exact Grows.refl s
          · rwa [others] at ih
        rcases last with ⟨made, last, done⟩ | ⟨e, -, done⟩
        · rw [done]
          exact grows.trans (makeDirectory_eq_ok last).2.1
        · rwa [done]

theorem leads_of_makeDirectories {paths : List Path}
    (h : t.makeDirectories (p :: paths) = (.ok (), t')) : p.Legal ∧ ∃ w, t'.Leads p w := by
  rcases makeDirectories_cases t p paths with ⟨e, s, -, done⟩ | ⟨s, -, last⟩
  · cases h.symm.trans done
  · rcases last with ⟨made, last, done⟩ | ⟨e, -, done⟩
    · cases h.symm.trans done
      exact ⟨(makeDirectory_eq_ok last).1, (makeDirectory_eq_ok last).2.2⟩
    · rw [h] at done
      obtain ⟨result, rfl⟩ := Prod.mk.inj done
      split at result
      · next directory => exact isDirectory_iff.mp directory
      · cases result

/-- To what is new when directories have been made, some of their paths lead. -/
theorem exists_leads_of_makeDirectories {paths : List Path} (nothing : t.node? place = none)
    (made : (t.makeDirectories paths).2.node? place ≠ none) :
    ∃ p ∈ paths, (t.makeDirectories paths).2.Leads p place := by
  induction paths with
  | nil => exact absurd nothing made
  | cons p paths ih =>
      rcases makeDirectories_cases t p paths with ⟨e, s, others, done⟩ | ⟨s, others, last⟩
      · rw [done] at made ⊢
        rw [others] at ih
        obtain ⟨q, hq, leads⟩ := ih made
        exact ⟨q, List.mem_cons_of_mem p hq, leads⟩
      · -- What is new stems from the others, or is the last directory.
        have before : s.node? place = none ∨ ∃ q ∈ paths, s.Leads q place := by
          by_cases gone : s.node? place = none
          · exact Or.inl gone
          · rcases others with rfl | others
            · exact absurd nothing gone
            · rw [others] at ih
              exact Or.inr (ih gone)
        rcases last with ⟨made', last, done⟩ | ⟨e, -, done⟩
        · rw [done] at made ⊢
          rcases before with nothing | ⟨q, hq, leads⟩
          · exact ⟨p, List.mem_cons_self, leads_of_makeDirectory last nothing made⟩
          · exact ⟨q, List.mem_cons_of_mem p hq,
              leads.mono (makeDirectory_eq_ok last).2.1.toKeeps⟩
        · rw [done] at made ⊢
          obtain ⟨q, hq, leads⟩ := before.resolve_left made
          exact ⟨q, List.mem_cons_of_mem p hq, leads⟩

/-- Directories that are there already are left as they are. -/
theorem makeDirectories_of_isDirectory {paths : List Path} (directory : t.isDirectory p = true) :
    t.makeDirectories (p :: paths) = (.ok (), t) := by
  obtain ⟨legal, w, leads⟩ := isDirectory_iff.mp directory
  rw [makeDirectories, makeDirectory_of_leads leads legal]
  dsimp only
  rw [if_pos directory]

/-! ## Making them once more -/

/-- Where pieces lead to a directory, so do the first of those that lead on. -/
theorem exists_walk_of_prefix {named : List String} (walks : t.walk place pieces = .ok w)
    (directory : t.node? w = some .directory) (first : named <+: pieces.filter Path.leads) :
    ∃ v, t.walk place named = .ok v ∧ t.node? v = some .directory := by
  obtain ⟨more, hmore⟩ := first
  have blank : t.walk place (pieces.filter Path.leads ++ [""]) = .ok w := by
    rw [walk_filter, walk_append, walks]
    exact walk_blank_eq_ok_iff.mpr ⟨directory, rfl⟩
  rw [← hmore, List.append_assoc, walk_append, bind_eq_ok_iff] at blank
  obtain ⟨v, hv, hw⟩ := blank
  obtain ⟨piece, rest, hrest⟩ := List.exists_cons_of_ne_nil (List.concat_ne_nil "" more)
  rw [hrest] at hw
  exact ⟨v, hv, directory_of_walk_cons hw⟩

/-- **What a path stands in is a directory**, if the path is one or can be made one. -/
theorem isDirectory_above (full : p.parts.dropLast ≠ [])
    (there : t.isDirectory p = true ∨ ∃ w, t.placeAbove p = .ok w) :
    t.isDirectory (.ofParts p.parts.dropLast) = true := by
  have first : p.parts.dropLast <+: p.parts := List.dropLast_prefix _
  have absolute := (Path.ofParts_front full first).2.1
  have before := Path.leads_front full first
  have short := Path.leads_above full
  obtain ⟨legal, pieces, w, walks, directory, shorter⟩ : p.Legal ∧ ∃ pieces w,
      t.walk (t.start p) pieces = .ok w ∧ t.node? w = some .directory ∧
        (Path.ofParts p.parts.dropLast).pieces.filter Path.leads <+:
          pieces.filter Path.leads := by
    rcases there with directory | ⟨w, above⟩
    · obtain ⟨legal, w, leads⟩ := isDirectory_iff.mp directory
      obtain ⟨walks, directory⟩ := (leads_iff_walk_pieces legal.nonempty).mp leads
      exact ⟨legal, _, w, walks, directory, before⟩
    · obtain ⟨legal, walks, directory⟩ := placeAbove_eq_ok_iff.mp above
      exact ⟨legal, _, w, walks, directory, short⟩
  obtain ⟨v, hv, directory⟩ := exists_walk_of_prefix walks directory shorter
  have legal' := legal.ofParts full first
  refine isDirectory_iff.mpr ⟨legal', v, (leads_iff_walk_pieces legal'.nonempty).mpr ?_⟩
  have start : t.start (.ofParts p.parts.dropLast) = t.start p := by
    unfold FileTree.start
    rw [absolute]
  have blank : t.walk (t.start p) ((Path.ofParts p.parts.dropLast).pieces ++ [""]) = .ok v := by
    rw [← walk_filter, walk_append, hv]
    exact walk_blank_eq_ok_iff.mpr ⟨directory, rfl⟩
  rw [walk_append, bind_eq_ok_iff] at blank
  obtain ⟨v', hv', last⟩ := blank
  obtain ⟨-, rfl⟩ := walk_blank_eq_ok_iff.mp last
  rw [start]
  exact ⟨hv', directory⟩

/-- Where a directory cannot be made, neither can it be with those above it. -/
theorem makeDirectories_of_makeDirectory {e : IoError} {paths : List Path}
    (failed : t.makeDirectory p = .error e) (undirected : ¬ t.isDirectory p = true)
    (others : (t.makeDirectories paths).2 = t) :
    ∃ e', t.makeDirectories (p :: paths) = (.error e', t) := by
  rcases makeDirectories_cases t p paths with ⟨e', s, above, done⟩ | ⟨s, above, last⟩
  · rw [above] at others
    cases others
    exact ⟨e', done⟩
  · have same : s = t := by
      rcases above with same | above
      · exact same
      · rwa [above] at others
    subst same
    rcases last with ⟨made, last, -⟩ | ⟨e', -, done⟩
    · cases failed.symm.trans last
    · rw [if_neg undirected] at done
      exact ⟨e', done⟩

theorem makeDirectories_again {paths : List Path} (h : t.makeDirectories paths = (.ok (), t')) :
    t'.makeDirectories paths = (.ok (), t') := by
  cases paths with
  | nil => rfl
  | cons p paths => exact makeDirectories_of_isDirectory (isDirectory_iff.mpr (leads_of_makeDirectories h))

/-- If not all can be made, those above cannot, or the last one cannot however often it is tried. -/
theorem makeDirectories_eq_error {e : IoError} {left : FileTree} {paths : List Path}
    (h : t.makeDirectories (p :: paths) = (.error e, left)) :
    (∃ e', t.makeDirectories paths = (.error e', left)) ∨ ¬ left.isDirectory p = true ∧
      ∃ e', left.makeDirectories (p :: paths) = (.error e', left) := by
  rcases makeDirectories_cases t p paths with ⟨e', s, others, done⟩ | ⟨s, others, last⟩
  · cases h.symm.trans done
    exact Or.inl ⟨e, others⟩
  · rcases last with ⟨made, -, done⟩ | ⟨e', failed, done⟩
    · cases h.symm.trans done
    · obtain ⟨result, same⟩ := Prod.mk.inj (h.symm.trans done)
      subst same
      split at result
      · cases result
      · next undirected =>
          refine Or.inr ⟨undirected, ?_⟩
          rcases others with same | others
          · subst same
            exact ⟨e, h⟩
          · exact makeDirectories_of_makeDirectory failed undirected
              (congrArg Prod.snd (makeDirectories_again others))

/-- **What could not be made cannot be made afterwards**, and trying once more changes nothing. -/
theorem makeDirectories_of_error {e : IoError} {left : FileTree}
    (h : t.makeDirectories (p :: p.above) = (.error e, left)) : ¬ left.isDirectory p = true ∧
      ∃ e', left.makeDirectories (p :: p.above) = (.error e', left) := by
  induction above : p.above generalizing p e with
  | nil =>
      rw [above] at h
      exact (makeDirectories_eq_error h).resolve_left fun ⟨_, others⟩ => by cases others
  | cons q paths ih =>
      rw [above] at h
      rcases makeDirectories_eq_error h with ⟨e', others⟩ | done
      · obtain ⟨full, same⟩ := p.above_cases.resolve_left (by rw [above]; exact List.cons_ne_nil _ _)
        rw [above] at same
        obtain ⟨rfl, rfl⟩ := List.cons.inj same
        -- nothing is made in what is no directory
        obtain ⟨missing, e'', again⟩ := ih others rfl
        have undirected : ¬ left.isDirectory p = true := fun directory =>
          missing (isDirectory_above full (Or.inl directory))
        refine ⟨undirected, ?_⟩
        cases made : left.makeDirectory p with
        | ok s =>
            obtain ⟨w, hw, -⟩ := bind_eq_ok_iff.mp made
            exact absurd (isDirectory_above full (Or.inr ⟨w, hw⟩)) missing
        | error e =>
            exact makeDirectories_of_makeDirectory made undirected (congrArg Prod.snd again)
      · exact done

/-! ## Paving -/

/-- **Whatever comes of paving, nothing but directories is made.** -/
theorem grows_pave (t : FileTree) (p : Path) : t.Grows (t.pave p).2 := by
  unfold pave
  split
  · exact Grows.refl t
  · exact grows_makeDirectories t _

/-- The directories are made, or some of them and then one cannot be. -/
theorem pave_cases (t : FileTree) (p : Path) :
    (∃ made, t.createDirectories p = .ok made ∧ t.pave p = (.ok (), made)) ∨
      ∃ e left, t.createDirectories p = .error e ∧ t.pave p = (.error e, left) := by
  unfold createDirectories
  obtain ⟨result, s⟩ := t.pave p
  cases result with
  | ok _ => exact Or.inl ⟨s, rfl, rfl⟩
  | error e => exact Or.inr ⟨e, s, rfl, rfl⟩

theorem createDirectories_eq_ok_iff : t.createDirectories p = .ok t' ↔ t.pave p = (.ok (), t') := by
  rcases pave_cases t p with ⟨made, makes, paves⟩ | ⟨e, left, makes, paves⟩
  · rw [makes, paves]
    simp
  · rw [makes, paves]
    simp

/-- Nothing is new but directories to which the path or one above it leads. -/
theorem exists_leads_of_pave (nothing : t.node? place = none)
    (made : (t.pave p).2.node? place ≠ none) : ∃ q ∈ p :: p.above, (t.pave p).2.Leads q place := by
  unfold pave at made ⊢
  split at made
  · exact absurd nothing made
  · next full =>
      rw [if_neg full]
      exact exists_leads_of_makeDirectories nothing made

/-- **When the directories of a path have been made, the path leads to one.** -/
theorem createDirectories_eq_ok (h : t.createDirectories p = .ok t') :
    t.Grows t' ∧ (p.text = "" ∧ t' = t ∨ p.Legal ∧ ∃ w, t'.Leads p w) := by
  rw [createDirectories_eq_ok_iff] at h
  have grows := grows_pave t p
  rw [h] at grows
  refine ⟨grows, ?_⟩
  unfold pave at h
  split at h
  · next empty => exact Or.inl ⟨String.isEmpty_iff.mp empty, (congrArg Prod.snd h).symm⟩
  · exact Or.inr (leads_of_makeDirectories h)

/-- **Directories that are there already are left as they are.** -/
theorem createDirectories_of_leads (leads : t.Leads p w) (legal : p.text ≠ "" → p.Legal) :
    t.createDirectories p = .ok t := by
  rw [createDirectories_eq_ok_iff]
  unfold pave
  split
  · rfl
  · next full =>
      rw [String.isEmpty_iff] at full
      exact makeDirectories_of_isDirectory (isDirectory_iff.mpr ⟨legal full, w, leads⟩)

theorem createDirectories_again {t'' : FileTree} (made : t.createDirectories p = .ok t')
    (keeps : t'.Keeps t'') : t''.createDirectories p = .ok t'' := by
  rcases (createDirectories_eq_ok made).2 with ⟨empty, -⟩ | ⟨legal, w, leads⟩
  · unfold createDirectories pave
    rw [if_pos (String.isEmpty_iff.mpr empty)]
  · exact createDirectories_of_leads (leads.mono keeps) fun _ => legal

theorem makeDirectory_of_not_legal (full : p.text ≠ "") (illegal : ¬ p.Legal) :
    ∃ e, t.makeDirectory p = .error e ∧ e ≠ .notFound := by
  have walks : ∀ pieces, ∃ e, t.walkFrom p pieces = .error e ∧ e ≠ .notFound := by
    intro pieces
    unfold walkFrom
    split
    · exact ⟨_, rfl, nofun⟩
    · next unbroken =>
        rw [if_neg (by rwa [String.isEmpty_iff])]
        split
        · exact ⟨_, rfl, nofun⟩
        · next short =>
            rw [List.contains_iff_mem] at unbroken
            exact absurd ⟨full, unbroken, Nat.not_le.mp short⟩ illegal
  obtain ⟨e, failed, other⟩ := walks (p.named.dropLast ++ [""])
  refine ⟨e, ?_, other⟩
  unfold makeDirectory placeAbove
  rw [failed]
  rfl

/-- Where a path leads to a directory, paving it changes nothing. -/
theorem pave_of_leads (leads : t.Leads p w) : (t.pave p).2 = t := by
  by_cases legal : p.text ≠ "" → p.Legal
  · rw [createDirectories_eq_ok_iff.mp (createDirectories_of_leads leads legal)]
  · obtain ⟨full, illegal⟩ := Classical.not_imp.mp legal
    obtain ⟨e, failed, other⟩ := makeDirectory_of_not_legal (t := t) full illegal
    unfold pave
    rw [if_neg (by rwa [String.isEmpty_iff]), makeDirectories_of_ne failed other]

/-- Where a path leads to a directory, making it changes nothing. -/
theorem eq_of_createDirectories (leads : t.Leads p w) (made : t.createDirectories p = .ok t') :
    t' = t := by
  have same := pave_of_leads leads
  rwa [createDirectories_eq_ok_iff.mp made] at same

/-- **What could not be paved cannot be paved afterwards**, and trying once more changes nothing. -/
theorem pave_of_error {e : IoError} {left : FileTree} (h : t.pave p = (.error e, left)) :
    (∀ w, ¬ (p.Legal ∧ left.Leads p w)) ∧ ∃ e', left.pave p = (.error e', left) := by
  unfold pave at h ⊢
  split at h
  · cases h
  · next full =>
      rw [if_neg full]
      obtain ⟨undirected, again⟩ := makeDirectories_of_error h
      exact ⟨fun w there => undirected (isDirectory_iff.mpr ⟨there.1, w, there.2⟩), again⟩

/-- What could not be paved is as it was if the path leads to it all the same. -/
theorem eq_of_pave_error {e : IoError} {left : FileTree} (h : t.pave p = (.error e, left))
    (leads : left.Leads p w) : left = t := by
  have illegal : ¬ p.Legal := fun legal => (pave_of_error h).1 w ⟨legal, leads⟩
  unfold pave at h
  split at h
  · cases h
  · next full =>
      obtain ⟨e', failed, other⟩ := makeDirectory_of_not_legal (t := t)
        (mt String.isEmpty_iff.mpr full) illegal
      rw [makeDirectories_of_ne failed other] at h
      exact (congrArg Prod.snd h).symm

end TemporalDB.FileTree
