import TemporalDB.Proofs.BuildCache.Outcome

/-!
# What a build leaves of its own

A build, and the removal of a unit, touch nothing but the listing and the unit of the name, and the
directories of the work directory where it was not there. There is one exception: a listing that is
written under its temporary name and cannot be moved to its own is left there. Main statement:
`build_touches_own_files`.
-/

namespace TemporalDB

open FileTree

/-- The place of the listing or of the unit of a name. -/
def Configuration.Owns (config : Configuration) (files : FileTree) (name : String)
    (place : List String) : Prop :=
  ∃ w, files.Leads config.workDir w ∧
    (place = w ++ [name ++ ".src"] ∨ place = w ++ [name ++ ".unit"])

/-- The place of a directory that was made since there was no work directory. -/
structure Configuration.Paves (config : Configuration) (before after : FileTree)
    (place : List String) : Prop where
  absent : ∀ w, ¬ before.Leads config.workDir w
  nothing : before.node? place = none
  made : after.node? place = some .directory
  leads : ∃ p ∈ config.workDir :: config.workDir.above, after.Leads p place

namespace BuildCache

section

variable [Tags] {c : BuildCache} {made after : FileTree} {name : String} {place : List String}
  {stray : List String → Prop}

/-- The listing of a name can be written at a place, under a temporary name, and not be moved from
there: its own path leads nowhere, or to a directory. -/
def Strands (c : BuildCache) (name : String) (place : List String) : Prop :=
  ∃ made, c.files.createDirectories c.config.workDir = .ok made ∧
    made.place (made.temporary (.ofParts c.config.workDir.parts) (name ++ ".src")) = .ok place ∧
    ∀ target, made.place (c.config.sourcePath name) = .ok target →
      made.node? target = some .directory

/-- The files after a call for a name are those before, but for the files of the name, the
directories of the work directory and strays. -/
structure Footprint (c : BuildCache) (name : String) (stray : List String → Prop)
    (after : FileTree) : Prop where
  elsewhere : ∀ place, after.node? place ≠ c.files.node? place →
    c.config.Owns after name place ∨ c.config.Paves c.files after place ∨ stray place
  /-- The listings and units of other names are as they were. -/
  others : ∀ other ≠ name, ∀ ending ∈ [".src", ".unit"], ∀ w bytes,
    after.node? (w ++ [other ++ ending]) = some (.file bytes) ↔
      c.files.node? (w ++ [other ++ ending]) = some (.file bytes)
  /-- No temporary file is new, or it is a stray one. -/
  temporaries : ∀ place bytes, IsTemporary place → after.node? place = some (.file bytes) →
    c.files.node? place = some (.file bytes) ∨ stray place

/-! ## Places of files -/

theorem not_isTemporary_of_owns (owns : c.config.Owns after name place) : ¬ IsTemporary place := by
  obtain ⟨w, -, rfl | rfl⟩ := owns
  · exact FileTree.not_isTemporary getLast?_append_src
  · exact FileTree.not_isTemporary getLast?_append_unit

theorem not_isTemporary_of_ending {w : List String} {other ending : String}
    (h : ending ∈ [".src", ".unit"]) : ¬ IsTemporary (w ++ [other ++ ending]) := by
  rcases List.mem_pair.mp h with rfl | rfl
  · exact not_isTemporary getLast?_append_src
  · exact not_isTemporary getLast?_append_unit

omit [Tags] in
theorem not_owns_of_ne {w : List String} {other ending : String} (ne : other ≠ name)
    (h : ending ∈ [".src", ".unit"]) : ¬ c.config.Owns after name (w ++ [other ++ ending]) := by
  rintro ⟨w', -, same | same⟩
  all_goals
    have same := (List.append_singleton_inj.mp same).2
    rcases List.mem_pair.mp h with rfl | rfl
  · exact ne (append_inj same)
  · exact append_src_ne_append_unit same.symm
  · exact append_src_ne_append_unit same
  · exact ne (append_inj same)

/-! ## Footprints -/

theorem Strands.isTemporary (strands : c.Strands name place) :
    IsTemporary place := by
  obtain ⟨made, hmade, hplace, -⟩ := strands
  exact (place_temporary hplace).1

theorem Footprint.of_elsewhere (temporary : ∀ place, stray place → IsTemporary place)
    (elsewhere : ∀ place, after.node? place ≠ c.files.node? place →
      c.config.Owns after name place ∨ c.config.Paves c.files after place ∨ stray place) :
    c.Footprint name stray after := by
  refine ⟨elsewhere, ?_, ?_⟩
  · intro other ne ending hending w bytes
    by_cases same : after.node? (w ++ [other ++ ending]) = c.files.node? (w ++ [other ++ ending])
    · rw [same]
    · rcases elsewhere _ same with owns | paves | strayed
      · exact absurd owns (not_owns_of_ne ne hending)
      · rw [paves.made, paves.nothing]
        simp
      · exact absurd (temporary _ strayed) (not_isTemporary_of_ending hending)
  · intro place bytes named found
    by_cases same : after.node? place = c.files.node? place
    · exact Or.inl (same ▸ found)
    · rcases elsewhere _ same with owns | paves | strayed
      · exact absurd named (not_isTemporary_of_owns owns)
      · rw [paves.made] at found
        cases found
      · exact Or.inr strayed

theorem Footprint.refl (c : BuildCache) (name : String) :
    c.Footprint name (fun _ => False) c.files :=
  .of_elsewhere (fun _ => False.elim) fun _ changed => absurd rfl changed

theorem Footprint.mono {stray' : List String → Prop} (footprint : c.Footprint name stray after)
    (h : ∀ place, stray place → stray' place) : c.Footprint name stray' after where
  elsewhere place changed := (footprint.elsewhere place changed).imp_right (Or.imp_right (h place))
  others := footprint.others
  temporaries place bytes named found := (footprint.temporaries place bytes named found).imp_right
    (h place)

omit [Tags] in
/-- The files of a name without a slash are in the work directory. -/
theorem owns_of_place (plain : '/' ∉ name.toList)
    (h : made.place (c.config.sourcePath name) = .ok place ∨
      made.place (c.config.artifactPath name) = .ok place) : c.config.Owns made name place := by
  rcases h with h | h
  · have named : IsFileName (name ++ ".src") := isFileName_append plain (by decide) (by decide)
    obtain ⟨-, -, w, leads, rfl⟩ := (place_join_eq_ok_iff named).mp h
    exact ⟨w, leads, Or.inl rfl⟩
  · have named : IsFileName (name ++ ".unit") := isFileName_append plain (by decide) (by decide)
    obtain ⟨-, -, w, leads, rfl⟩ := (place_join_eq_ok_iff named).mp h
    exact ⟨w, leads, Or.inr rfl⟩

omit [Tags] in
/-- What is new when the work directory has been paved are directories that lead to it. -/
theorem paves_of_new
    (new : (c.files.pave c.config.workDir).2.node? place ≠ c.files.node? place) :
    c.config.Paves c.files (c.files.pave c.config.workDir).2 place := by
  have grows := grows_pave c.files c.config.workDir
  have nothing : c.files.node? place = none := by
    cases before : c.files.node? place with
    | none => rfl
    | some node =>
        refine absurd ?_ new
        cases node with
        | directory => rw [before, grows.directory place before]
        | file bytes => rw [before, (grows.file place bytes).mpr before]
  rw [nothing] at new
  refine ⟨?_, nothing, ?_, exists_leads_of_pave nothing new⟩
  · intro w leads
    rw [pave_of_leads leads] at new
    exact new nothing
  · cases found : (c.files.pave c.config.workDir).2.node? place with
    | none => exact absurd found new
    | some node =>
        cases node with
        | directory => rfl
        | file bytes =>
            rw [(grows.file place bytes).mp found] at nothing
            cases nothing

/-- The steps of a call: the work directory is paved, and then nothing changes but the files of the
name and strays. -/
theorem Footprint.of_steps (plain : '/' ∉ name.toList)
    (temporary : ∀ place, stray place → IsTemporary place)
    (paves : (c.files.pave c.config.workDir).2 = made)
    (agrees : made.AgreesBut after fun place => (made.place (c.config.sourcePath name) = .ok place ∨
      made.place (c.config.artifactPath name) = .ok place) ∨ stray place) :
    c.Footprint name stray after := by
  subst paves
  refine .of_elsewhere temporary fun place changed => ?_
  -- What differs in the end differs already when the directories are made, or changes later.
  by_cases later : after.node? place = (c.files.pave c.config.workDir).2.node? place
  · rw [later] at changed
    obtain ⟨absent, nothing, directory, p, hp, leads⟩ := paves_of_new changed
    exact Or.inr (Or.inl
      ⟨absent, nothing, later ▸ directory, p, hp, agrees.leads_iff.mpr leads⟩)
  · have touched := not_not.mp (mt (agrees.elsewhere place) later)
    rcases touched with own | strayed
    · obtain ⟨w, leads, named⟩ := owns_of_place plain own
      exact Or.inl ⟨w, agrees.leads_iff.mpr leads, named⟩
    · exact Or.inr (Or.inr strayed)

/-! ## The steps of a build -/

/-- What a build that goes on changes once the work directory has been made. -/
theorem agreesBut_compileStored (confined : c.compiler.Confined)
    (plain : '/' ∉ name.toList) (source : Option String)
    (hmade : c.files.createDirectories c.config.workDir = .ok made) :
    made.AgreesBut (c.compileStored source name).2.files fun place =>
      (made.place (c.config.sourcePath name) = .ok place ∨
        made.place (c.config.artifactPath name) = .ok place) ∨
      source.isSome ∧ c.Strands name place := by
  have named : IsFileName (name ++ ".src") := isFileName_append plain (by decide) (by decide)
  unfold compileStored
  rw [createDirectories_eq_ok_iff.mp hmade]
  cases source with
  | none =>
      refine (agreesBut_compile (c := { c with files := made }) confined name).mono ?_
      exact fun place artifact => Or.inl (Or.inr artifact)
  | some listing =>
      dsimp only
      rcases publish_outcomes (p := c.config.workDir) listing.toUTF8 named with
        ⟨-, target, -, htarget, free, stored⟩ | ⟨e, failed⟩ | ⟨e, place, hplace, stuck, left⟩
      · -- The unit has the same place whether the listing is stored yet or not.
        have published := agreesBut_assign (some listing.toUTF8) named htarget free
        have compiled := agreesBut_compile
          (c := { c with files := made.assign target (some listing.toUTF8) }) confined
          name
        have run : publish made (c.config.sourcePath name) listing.toUTF8 = _ := stored
        rw [run]
        refine AgreesBut.trans (published.mono ?_) (compiled.mono ?_)
        · rintro _ rfl
          exact Or.inl (Or.inl htarget)
        · exact fun place artifact => Or.inl (Or.inr (published.place_iff.mp artifact))
      · have run : publish made (c.config.sourcePath name) listing.toUTF8 = _ := failed
        rw [run]
        exact AgreesBut.refl made _
      · have run : publish made (c.config.sourcePath name) listing.toUTF8 = _ := left
        rw [run]
        refine (agreesBut_temporary (some listing.toUTF8) hplace).mono ?_
        rintro _ rfl
        exact Or.inr ⟨rfl, made, hmade, hplace, stuck⟩

theorem footprint_compileStored (confined : c.compiler.Confined)
    (plain : '/' ∉ name.toList) (source : Option String) :
    c.Footprint name (fun place => source.isSome ∧ c.Strands name place)
      (c.compileStored source name).2.files := by
  refine .of_steps plain (fun _ strays => strays.2.isTemporary) rfl ?_
  rcases pave_cases c.files c.config.workDir with ⟨made, hmade, paves⟩ | ⟨e, left, -, paves⟩
  · rw [paves]
    exact agreesBut_compileStored confined plain source hmade
  · rw [compileStored_of_unpaved paves, paves]
    exact AgreesBut.refl left _

/-- A listing that can be written and not be moved stays where it was written, where there was
nothing, and the build fails. -/
theorem compileStored_of_strands (plain : '/' ∉ name.toList)
    (source : String) (strands : c.Strands name place) :
    c.files.node? place = none ∧ ∃ e left, c.compileStored (some source) name =
      (.error e, { c with files := left }) ∧ left.node? place = some (.file source.toUTF8) := by
  obtain ⟨made, hmade, hplace, stuck⟩ := strands
  have named : IsFileName (name ++ ".src") := isFileName_append plain (by decide) (by decide)
  obtain ⟨-, full, nothing, -⟩ := write_temporary source.toUTF8 hplace
  obtain ⟨e, left⟩ := publish_of_stuck source.toUTF8 named hplace stuck
  have run : publish made (c.config.sourcePath name) source.toUTF8 = _ := left
  refine ⟨?_, e, made.assign place (some source.toUTF8), ?_, ?_⟩
  · by_contra found
    refine found (paves_of_new ?_).nothing
    rw [createDirectories_eq_ok_iff.mp hmade, nothing]
    exact Ne.symm found
  · unfold compileStored
    rw [createDirectories_eq_ok_iff.mp hmade]
    dsimp only
    rw [run]
  · rw [node?_assign full, if_pos rfl]
    rfl

/-! ## The calls for a name -/

theorem footprint_build (confined : c.compiler.Confined)
    (plain : '/' ∉ name.toList) (source : String) :
    c.Footprint name (fun place => c.Misses name ∧ c.Strands name place)
      (c.build source name).2.files := by
  by_cases misses : c.Misses name
  · rw [build_of_misses misses]
    exact (footprint_compileStored confined plain (some source)).mono
      fun _ strays => ⟨misses, strays.2⟩
  · rw [build_of_not_misses misses]
    exact (Footprint.refl c name).mono fun _ => False.elim

omit [Tags] in
theorem exists_leads_of_evict (plain : '/' ∉ name.toList)
    (changed : (c.evict name).2.files.node? place ≠ c.files.node? place) :
    ∃ w, (c.evict name).2.files.Leads c.config.workDir w ∧ c.files.Leads c.config.workDir w ∧
      place = w ++ [name ++ ".unit"] := by
  have named : IsFileName (name ++ ".unit") := isFileName_append plain (by decide) (by decide)
  have agrees := agreesBut_discard (t := c.files) (p := c.config.workDir) named
  rw [evict_eq] at changed ⊢
  have own := not_not.mp (mt (agrees.elsewhere place) changed)
  obtain ⟨-, -, w, leads, rfl⟩ := (place_join_eq_ok_iff named).mp own
  exact ⟨w, agrees.leads_iff.mpr leads, leads, rfl⟩

/-- **A build touches its own two files, and leaves a temporary one in a single case.** For every
tree of files, every name without a slash and every compiler that writes nothing but the unit:

- after a build nothing differs but the listing and the unit of the name, and the directories of the
  work directory if it was not there; but a listing that can be written under its temporary name and
  not be moved from there stays there, though the build fails;
- after a build from the stored listing there is not that exception either;
- after a removal nothing differs but the unit. -/
theorem build_touches_own_files (confined : c.compiler.Confined)
    (plain : '/' ∉ name.toList) (source : String) :
    c.Footprint name (fun place => c.Misses name ∧ c.Strands name place)
      (c.build source name).2.files ∧
    (∀ place, c.Misses name → c.Strands name place →
      IsTemporary place ∧ c.files.node? place = none ∧ (∃ e, (c.build source name).1 = .error e) ∧
        (c.build source name).2.files.node? place = some (.file source.toUTF8)) ∧
    c.Footprint name (fun _ => False) (c.rebuild name).2.files ∧
    c.Footprint name (fun _ => False) (c.evict name).2.files ∧
    ∀ place, (c.evict name).2.files.node? place ≠ c.files.node? place →
      ∃ w, c.files.Leads c.config.workDir w ∧ place = w ++ [name ++ ".unit"] := by
  refine ⟨footprint_build confined plain source, ?_, ?_, ?_, ?_⟩
  · intro place misses strands
    obtain ⟨nothing, e, left, failed, found⟩ :=
      compileStored_of_strands plain source strands
    rw [build_of_misses misses, failed]
    exact ⟨strands.isTemporary, nothing, ⟨e, rfl⟩, found⟩
  · exact (footprint_compileStored confined plain none).mono
      fun _ strays => absurd strays.1 Bool.false_ne_true
  · refine .of_elsewhere (fun _ => False.elim) fun place changed => ?_
    obtain ⟨w, leads, -, rfl⟩ := exists_leads_of_evict plain changed
    exact Or.inl ⟨w, leads, Or.inr rfl⟩
  · intro place changed
    obtain ⟨w, -, leads, named⟩ := exists_leads_of_evict plain changed
    exact ⟨w, leads, named⟩

end

/-- A compiler that stops half-way leaves nothing of what it wrote. -/
theorem build_touches_own_files_halting :
    let c : BuildCache := ⟨.default, halting, furnished, 0⟩
    c.Footprint "q" (fun place => c.Misses "q" ∧ c.Strands "q" place)
        (c.build "unit query" "q").2.files ∧
      c.Footprint "q" (fun _ => False) (c.rebuild "q").2.files ∧
      c.Footprint "q" (fun _ => False) (c.evict "q").2.files := by
  intro c
  obtain ⟨built, -, rebuilt, evicted, -⟩ := build_touches_own_files (c := c) confined_halting
    (by decide : '/' ∉ "q".toList) "unit query"
  exact ⟨built, rebuilt, evicted⟩

/-- A work directory in which a directory has the path of a listing. -/
def obstructed : FileTree := furnished.addDirectory ["tmp", "q.src"]

/-- **A build can leave a temporary file behind.** Where a directory has the path of the listing,
the build fails before the compiler runs, and the listing stays under its temporary name. -/
theorem build_leaves_temporary :
    let c : BuildCache := ⟨.default, .inProcess, obstructed, 0⟩
    let temporary : Path := ⟨"tmp/.q.src" ++ markOf (Tags.numbered 0)⟩
    c.compiler.Confined ∧
      (c.build "unit query" "q").1 = .error (.file ⟨"tmp/q.src"⟩ .isADirectory) ∧
      c.files.exists temporary = false ∧
      (c.build "unit query" "q").2.files.isFile temporary = true := by
  exact ⟨Compiler.confined_inProcess, by decide +kernel⟩

end BuildCache

end TemporalDB
