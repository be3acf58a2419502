import TemporalDB.Proofs.FileTree.Temporary

/-!
# What a build leaves

Publishing puts a content at its place or changes nothing, once a temporary file that can be made
can also be moved there. Compiling puts at its place what the compiler wrote, or fails and leaves no
unit, whatever the compiler does, as long as it writes nothing but the unit. The assembler is such a
compiler, and what it writes is the unit of the stored listing.
-/

namespace TemporalDB

open FileTree

variable {t : FileTree} {p : Path} {name : String} {place target : List String}
  {bytes : ByteArray}

/-! ## Names of listings and units -/

theorem append_src_ne_append_unit {other : String} : name ++ ".src" ≠ other ++ ".unit" := by
  intro same
  have last := congrArg (fun s => s.toList.getLast?) same
  rw [String.toList_append, String.toList_append, List.getLast?_append_of_ne_nil _ (by decide),
    List.getLast?_append_of_ne_nil _ (by decide)] at last
  exact absurd last (by decide)

theorem append_inj {other ending : String} (h : name ++ ending = other ++ ending) :
    name = other := by
  rw [← String.toList_inj, String.toList_append, String.toList_append] at h
  exact String.toList_inj.mp (List.append_cancel_right h)

theorem getLast?_append_src : (name ++ ".src").toList.getLast? ≠ some 'p' := by
  rw [String.toList_append, List.getLast?_append_of_ne_nil _ (by decide)]
  decide

theorem getLast?_append_unit : (name ++ ".unit").toList.getLast? ≠ some 'p' := by
  rw [String.toList_append, List.getLast?_append_of_ne_nil _ (by decide)]
  decide

/-- The paths of the listing and of the unit of a name lead to files of one directory. -/
theorem Configuration.exists_paths (config : Configuration) (name : String) :
    ∃ (q : Path) (base : String), IsFileName (base ++ ".src") ∧ IsFileName (base ++ ".unit") ∧
      config.sourcePath name = q.join (base ++ ".src") ∧
      config.artifactPath name = q.join (base ++ ".unit") := by
  obtain ⟨q, base, plain, joined⟩ := config.workDir.exists_join_append name
  exact ⟨q, base, isFileName_append plain (by decide) (by decide),
    isFileName_append plain (by decide) (by decide), joined ".src" (by decide),
    joined ".unit" (by decide)⟩

/-! ## Compilers that write nothing but the unit -/

/-- Whatever comes of it, the compiler changes nothing but what is at the path of the unit: it may
write all of the unit there, a part of it, or nothing. This leaves out compilers that touch other
files, and those that make a directory at the path of the unit, which a build could not remove. -/
def Compiler.Confined (compiler : Compiler) : Prop :=
  ∀ files source artifact, (compiler files source artifact).2 = files ∨
    ∃ place content, files.place artifact = .ok place ∧
      (compiler files source artifact).2 = files.assign place content

/-- What is written to a file stands at the place of its path. -/
theorem FileTree.exists_of_write {written : FileTree} (h : t.write p bytes = .ok written) :
    ∃ place, t.place p = .ok place ∧ written = t.assign place (some bytes) := by
  obtain ⟨place, hplace, h⟩ := bind_eq_ok_iff.mp h
  have found : t.place p = .ok place := by
    unfold placeOfFile at hplace
    split at hplace
    · split at hplace
      · cases hplace
      · cases hplace
    · exact hplace
  refine ⟨place, found, ?_⟩
  split at h
  · cases h
  · exact (Except.ok.inj h).symm

/-- **The assembler writes nothing but the unit.** -/
theorem Compiler.confined_inProcess : Compiler.inProcess.Confined := by
  intro files source artifact
  unfold Compiler.inProcess
  split
  · exact Or.inl rfl
  · split
    · exact Or.inl rfl
    · split
      · exact Or.inl rfl
      · next written =>
          obtain ⟨place, hplace, rfl⟩ := exists_of_write written
          exact Or.inr ⟨place, _, hplace, rfl⟩

namespace BuildCache

variable {c : BuildCache} {files : FileTree}

/-- A listing at a path that assembles to a unit of some bytes. -/
def Assembles (files : FileTree) (source : Path) (bytes : ByteArray) : Prop :=
  ∃ listing u, files.readText source = .ok listing ∧ Assembly.assemble listing = .ok u ∧
    bytes = u.artifact.toUTF8

/-- The assembler makes the unit of a listing that assembles. -/
theorem exists_of_inProcess {source artifact : Path} {made : FileTree}
    (h : Compiler.inProcess files source artifact = (.ok (), made)) :
    ∃ bytes place, Assembles files source bytes ∧ files.place artifact = .ok place ∧
      made = files.assign place (some bytes) := by
  unfold Compiler.inProcess at h
  split at h
  · cases h
  · next listing stored =>
      split at h
      · cases h
      · next u assembled =>
          split at h
          · cases h
          · next files' written =>
              cases h
              obtain ⟨place, hplace, rfl⟩ := exists_of_write written
              exact ⟨_, place, ⟨listing, u, stored, assembled, rfl⟩, hplace, rfl⟩

/-! ## Looking a unit up and removing it -/

theorem lookup_eq_none_iff (hplace : c.files.place (c.config.artifactPath name) = .ok place) :
    c.lookup name = none ↔ c.files.node? place = none := by
  unfold lookup FileTree.exists FileTree.look
  dsimp only
  rw [hplace]
  change (if (c.files.node? place).isSome = true then _ else _) = none ↔ _
  cases c.files.node? place with
  | none => simp
  | some node => simp

theorem lookup_eq_none_iff_look :
    c.lookup name = none ↔ c.files.look (c.config.artifactPath name) = none := by
  unfold lookup FileTree.exists
  dsimp only
  cases c.files.look (c.config.artifactPath name) with
  | none => simp
  | some node => simp

theorem lookup_eq_some {path : Path} (h : c.lookup name = some path) :
    path = c.config.artifactPath name := by
  unfold lookup at h
  dsimp only at h
  split at h
  · exact (Option.some.inj h).symm
  · cases h

theorem evict_eq (c : BuildCache) (name : String) :
    (c.evict name).2 = { c with files := c.files.discard (c.config.artifactPath name) } := by
  unfold evict FileTree.discard
  dsimp only
  cases c.files.remove (c.config.artifactPath name) with
  | ok files => rfl
  | error e => cases e <;> rfl

end BuildCache

variable [Tags]

namespace FileTree

/-! ## Temporary files -/

/-- What is written under a temporary name can be read there and taken away again. -/
theorem write_temporary (bytes : ByteArray)
    (hplace : t.place (t.temporary p name) = .ok place) :
    t.write (t.temporary p name) bytes = .ok (t.assign place (some bytes)) ∧
      place ≠ [] ∧ t.node? place = none ∧ (t.assign place (some bytes)).assign place none = t := by
  obtain ⟨temporary, nothing⟩ := place_temporary hplace
  have free : t.node? place = none := by
    obtain ⟨w, x, n, rfl, -⟩ := temporary
    rw [node?_append]
    exact nothing
  refine ⟨?_, temporary.ne_nil, free, ?_⟩
  · obtain ⟨q, base, temporary⟩ := exists_temporary p name
    obtain ⟨path, named⟩ := temporary t
    rw [path] at hplace ⊢
    refine (write_join_eq_ok_iff named).mpr ⟨place, hplace, ?_, rfl⟩
    rw [free]
    exact (Option.some_ne_none _).symm
  · rw [assign_assign]
    exact assign_self nothing

theorem discard_temporary : t.discard (t.temporary p name) = t := by
  rcases discard_cases t (t.temporary p name) with same | ⟨place, bytes, hplace, hnode, -⟩
  · exact same
  · obtain ⟨-, -, free, -⟩ := write_temporary bytes hplace
    rw [free] at hnode
    cases hnode

theorem place_of_temporary (bytes : ByteArray)
    (hplace : t.place (t.temporary p name) = .ok place) :
    t.Keeps (t.assign place (some bytes)) ∧
      (t.assign place (some bytes)).place (t.temporary p name) = .ok place ∧
      (t.assign place (some bytes)).node? place = some (.file bytes) := by
  obtain ⟨-, full, nothing, -⟩ := write_temporary bytes hplace
  have keeps : t.Keeps (t.assign place (some bytes)) :=
    keeps_assign _ full (by rw [nothing]; exact (Option.some_ne_none _).symm)
  refine ⟨keeps, place_mono keeps hplace, ?_⟩
  rw [node?_assign full, if_pos rfl]
  rfl

theorem discard_written (bytes : ByteArray)
    (hplace : t.place (t.temporary p name) = .ok place) :
    (t.assign place (some bytes)).discard (t.temporary p name) = t := by
  obtain ⟨-, written, here⟩ := place_of_temporary bytes hplace
  rw [discard_of_file written here]
  exact (write_temporary bytes hplace).2.2.2

/-- There is nothing to be moved where no temporary file was written. -/
theorem rename_absent (p : Path) (name : String) (q : Path) :
    ∃ e, t.rename (t.temporary p name) q = .error e := by
  unfold rename
  cases hplace : t.place (t.temporary p name) with
  | error e => exact ⟨e, rfl⟩
  | ok place =>
      obtain ⟨-, -, nothing, -⟩ := write_temporary .empty hplace
      rw [ok_bind, nothing]
      exact ⟨.notFound, rfl⟩

/-- **A temporary file is moved to a name where there is no directory**, and nowhere else. -/
theorem rename_temporary (bytes : ByteArray) {file : String}
    (hfile : IsFileName file) {q : Path} (hplace : t.place (t.temporary p name) = .ok place)
    {moved : FileTree} :
    (t.assign place (some bytes)).rename (t.temporary p name) (q.join file) = .ok moved ↔
      ∃ target, t.place (q.join file) = .ok target ∧ t.node? target ≠ some .directory ∧
        moved = t.assign target (some bytes) := by
  obtain ⟨keeps, written, here⟩ := place_of_temporary bytes hplace
  obtain ⟨-, full, -, back⟩ := write_temporary bytes hplace
  have keeps' : (t.assign place (some bytes)).Keeps t := keeps_of_assign full
  rw [rename_join_eq_ok_iff hfile written here]
  apply exists_congr
  intro target
  rw [back]
  apply and_congr ⟨place_mono keeps', place_mono keeps⟩
  apply and_congr_left
  intro _
  exact not_congr ⟨keeps'.directory target, keeps.directory target⟩

end FileTree

namespace BuildCache

variable {c : BuildCache} {files : FileTree} {file : String} {content : ByteArray}

/-! ## Publishing -/

theorem publish_join (h : IsFileName file) : publish files (p.join file) content =
    match files.write (files.temporary (.ofParts p.parts) file) content with
    | .error e => (.error (.file (files.temporary (.ofParts p.parts) file) e),
        files.discard (files.temporary (.ofParts p.parts) file))
    | .ok written =>
      match written.rename (files.temporary (.ofParts p.parts) file) (p.join file) with
      | .error e => (.error (.file (p.join file) e), written)
      | .ok moved => (.ok (), moved) := by
  unfold publish
  rw [Path.parent_join h, Path.fileName_join h]
  rfl

/-- What can be written under a temporary name is published. -/
theorem publish_eq_ok (h : IsFileName file)
    (hplace : files.place (files.temporary (.ofParts p.parts) file) = .ok place)
    (htarget : files.place (p.join file) = .ok target)
    (free : files.node? target ≠ some .directory) :
    publish files (p.join file) content = (.ok (), files.assign target (some content)) := by
  obtain ⟨written, -⟩ := write_temporary content hplace
  rw [publish_join h, written]
  dsimp only
  rw [(rename_temporary content h hplace).mpr ⟨target, htarget, free, rfl⟩]

/-- What can be written under a temporary name and not be moved from there is left there. -/
theorem publish_of_stuck (content : ByteArray) (h : IsFileName file)
    (hplace : files.place (files.temporary (.ofParts p.parts) file) = .ok place)
    (stuck : ∀ target, files.place (p.join file) = .ok target →
      files.node? target = some .directory) :
    ∃ e, publish files (p.join file) content =
      (.error e, files.assign place (some content)) := by
  obtain ⟨written, -⟩ := write_temporary content hplace
  rw [publish_join h, written]
  dsimp only
  cases moved : (files.assign place (some content)).rename
      (files.temporary (.ofParts p.parts) file) (p.join file) with
  | ok after =>
      obtain ⟨target, htarget, free, -⟩ := (rename_temporary content h hplace).mp moved
      exact absurd (stuck target htarget) free
  | error e => exact ⟨_, rfl⟩

/-- **Publishing puts the content at its place, or changes nothing, or leaves a temporary file** that
cannot be moved. -/
theorem publish_outcomes (content : ByteArray) (h : IsFileName file) :
    (∃ place target, files.place (files.temporary (.ofParts p.parts) file) = .ok place ∧
      files.place (p.join file) = .ok target ∧ files.node? target ≠ some .directory ∧
      publish files (p.join file) content = (.ok (), files.assign target (some content))) ∨
    (∃ e, publish files (p.join file) content = (.error e, files)) ∨
    ∃ e place, files.place (files.temporary (.ofParts p.parts) file) = .ok place ∧
      (∀ target, files.place (p.join file) = .ok target → files.node? target = some .directory) ∧
      publish files (p.join file) content = (.error e, files.assign place (some content)) := by
  cases hplace : files.place (files.temporary (.ofParts p.parts) file) with
  | ok place =>
      by_cases movable : ∃ target, files.place (p.join file) = .ok target ∧
          files.node? target ≠ some .directory
      · obtain ⟨target, htarget, free⟩ := movable
        exact Or.inl ⟨place, target, rfl, htarget, free, publish_eq_ok h hplace htarget free⟩
      · have stuck : ∀ target, files.place (p.join file) = .ok target →
            files.node? target = some .directory := by
          intro target htarget
          by_contra free
          exact movable ⟨target, htarget, free⟩
        obtain ⟨e, left⟩ := publish_of_stuck content h hplace stuck
        exact Or.inr (Or.inr ⟨e, place, rfl, stuck, left⟩)
  | error e =>
      -- what has no place cannot be written
      have unwritten : ∀ written,
          files.write (files.temporary (.ofParts p.parts) file) content ≠ .ok written := by
        intro written hw
        obtain ⟨q, base, temporary⟩ := exists_temporary (.ofParts p.parts) file
        obtain ⟨path, named⟩ := temporary files
        rw [path] at hplace hw
        obtain ⟨place, hp, -⟩ := (write_join_eq_ok_iff named).mp hw
        exact absurd (hplace.symm.trans hp) (by simp)
      refine Or.inr (Or.inl ?_)
      rw [publish_join h]
      cases hw : files.write (files.temporary (.ofParts p.parts) file) content with
      | ok written => exact absurd hw (unwritten written)
      | error e => exact ⟨_, congrArg _ (discard_temporary)⟩

/-- **Publishing puts the content at its place, or changes nothing**, where a temporary file that can
be made can also be moved. -/
theorem publish_cases (content : ByteArray) (h : IsFileName file)
    (movable : ∀ place, files.place (files.temporary (.ofParts p.parts) file) = .ok place →
      ∃ target, files.place (p.join file) = .ok target ∧ files.node? target ≠ some .directory) :
    (∃ place target, files.place (files.temporary (.ofParts p.parts) file) = .ok place ∧
      files.place (p.join file) = .ok target ∧ files.node? target ≠ some .directory ∧
      publish files (p.join file) content = (.ok (), files.assign target (some content))) ∨
    ∃ e, publish files (p.join file) content = (.error e, files) := by
  rcases publish_outcomes content h with done | failed | ⟨e, place, hplace, stuck, -⟩
  · exact Or.inl done
  · exact Or.inr failed
  · obtain ⟨target, htarget, free⟩ := movable place hplace
    exact absurd (stuck target htarget) free

/-! ## Compiling -/

/-- The compiler makes a unit of some bytes of the listing of a name. -/
def Makes (c : BuildCache) (name : String) (bytes : ByteArray) : Prop :=
  ∃ made, c.compiler c.files (c.config.sourcePath name)
      (c.files.temporary c.config.workDir name) = (.ok (), made) ∧
    made.read (c.files.temporary c.config.workDir name) = .ok bytes

theorem compile_eq {result : Except BuildError Unit} {after : FileTree}
    (made : c.compiler c.files (c.config.sourcePath name)
      (c.files.temporary c.config.workDir name) = (result, after)) : c.compile name =
    match (result >>= fun _ => (after.rename (c.files.temporary c.config.workDir name)
      (c.config.artifactPath name)).mapError (.file (c.config.artifactPath name))) with
    | .error e => (.error e, { c with
        files := (after.discard (c.files.temporary c.config.workDir name)).discard
          (c.config.artifactPath name), builds := c.builds + 1 })
    | .ok moved => (.ok .compiled, { c with files := moved, builds := c.builds + 1 }) := by
  unfold compile
  simp only [made]
  cases result with
  | error e => rfl
  | ok _ =>
      dsimp only [bind, Except.bind]
      cases after.rename (c.files.temporary c.config.workDir name) (c.config.artifactPath name) with
      | error e => rfl
      | ok moved => rfl

/-- **Compiling puts at its place what the compiler wrote, or leaves no unit.** -/
theorem compile_cases (confined : c.compiler.Confined) (name : String) :
    (∃ target bytes, c.Makes name bytes ∧ c.files.place (c.config.artifactPath name) = .ok target ∧
      c.files.node? target ≠ some .directory ∧ c.compile name = (.ok .compiled, { c with
        files := c.files.assign target (some bytes), builds := c.builds + 1 })) ∨
    ∃ e, c.compile name = (.error e, { c with
      files := c.files.discard (c.config.artifactPath name), builds := c.builds + 1 }) := by
  obtain ⟨q, base, -, named, -, path⟩ := c.config.exists_paths name
  cases made : c.compiler c.files (c.config.sourcePath name)
      (c.files.temporary c.config.workDir name) with
  | mk result after =>
      -- a confined compiler that erases its file leaves as much as one that wrote nothing
      have written : after = c.files ∨ ∃ place bytes,
          c.files.place (c.files.temporary c.config.workDir name) = .ok place ∧
            after = c.files.assign place (some bytes) := by
        have wrote := confined c.files (c.config.sourcePath name)
          (c.files.temporary c.config.workDir name)
        rw [made] at wrote
        rcases wrote with same | ⟨place, _ | bytes, hplace, hafter⟩
        · exact Or.inl same
        · exact Or.inl (hafter.trans (assign_self (place_temporary hplace).2))
        · exact Or.inr ⟨place, bytes, hplace, hafter⟩
      rw [compile_eq made]
      rcases written with rfl | ⟨place, bytes, hplace, rfl⟩
      · refine Or.inr ?_
        obtain ⟨e, absent⟩ := rename_absent c.config.workDir name
          (c.config.artifactPath name)
        rw [discard_temporary, absent]
        cases result with
        | error e' => exact ⟨e', rfl⟩
        | ok _ => exact ⟨_, rfl⟩
      · rw [discard_written bytes hplace]
        cases result with
        | error e => exact Or.inr ⟨e, rfl⟩
        | ok _ =>
            rw [ok_bind]
            cases moved : (c.files.assign place (some bytes)).rename
                (c.files.temporary c.config.workDir name) (c.config.artifactPath name) with
            | error e => exact Or.inr ⟨_, rfl⟩
            | ok files =>
                have read := path ▸ moved
                obtain ⟨target, htarget, free, rfl⟩ :=
                  (rename_temporary bytes named hplace).mp read
                obtain ⟨-, here, found⟩ := place_of_temporary bytes hplace
                refine Or.inl ⟨target, bytes, ⟨_, made, ?_⟩, path ▸ htarget, free, rfl⟩
                exact read_eq_ok_iff.mpr ⟨place, here, found⟩

/-! ## Compiling with the assembler -/

theorem inProcess_eq_ok {source : Path}
    (assembles : Assembles files source bytes)
    (hplace : files.place (files.temporary p name) = .ok place) :
    Compiler.inProcess files source (files.temporary p name) =
      (.ok (), files.assign place (some bytes)) := by
  obtain ⟨listing, u, stored, assembled, made⟩ := assembles
  obtain ⟨written, -⟩ := write_temporary bytes hplace
  unfold Compiler.inProcess
  rw [stored]
  dsimp only
  rw [assembled]
  dsimp only
  rw [← made, written]

/-- A unit can be compiled: its listing assembles, and it can be written and moved to a place. -/
structure Compiles (c : BuildCache) (name : String) (target : List String) (bytes : ByteArray) :
    Prop where
  assembles : Assembles c.files (c.config.sourcePath name) bytes
  writable : ∃ place, c.files.place (c.files.temporary c.config.workDir name) = .ok place
  place : c.files.place (c.config.artifactPath name) = .ok target
  free : c.files.node? target ≠ some .directory

theorem compile_eq_ok (inProcess : c.compiler = .inProcess)
    (h : c.Compiles name target bytes) : c.compile name = (.ok .compiled, { c with
      files := c.files.assign target (some bytes), builds := c.builds + 1 }) := by
  obtain ⟨place, hplace⟩ := h.writable
  obtain ⟨q, base, -, named, -, path⟩ := c.config.exists_paths name
  have moved := (rename_temporary bytes named hplace).mpr
    ⟨target, path ▸ h.place, h.free, rfl⟩
  have made := inProcess_eq_ok h.assembles hplace
  rw [← inProcess] at made
  rw [compile_eq made, path, moved]
  rfl

theorem Makes.assembles (inProcess : c.compiler = .inProcess)
    (makes : c.Makes name bytes) : Assembles c.files (c.config.sourcePath name) bytes ∧
      ∃ place, c.files.place (c.files.temporary c.config.workDir name) = .ok place := by
  obtain ⟨made, h, hread⟩ := makes
  rw [inProcess] at h
  obtain ⟨bytes', place, assembles, hplace, rfl⟩ := exists_of_inProcess h
  obtain ⟨-, written, here⟩ := place_of_temporary bytes' hplace
  obtain ⟨place', hplace', hnode⟩ := read_eq_ok_iff.mp hread
  cases written.symm.trans hplace'
  cases here.symm.trans hnode
  exact ⟨assembles, place, hplace⟩

/-- **The assembler puts the unit of the listing at its place, or leaves none.** -/
theorem compile_cases_of_inProcess (inProcess : c.compiler = .inProcess)
    (name : String) :
    (∃ target bytes, c.Compiles name target bytes ∧
      c.compile name = (.ok .compiled, { c with
        files := c.files.assign target (some bytes), builds := c.builds + 1 })) ∨
    ∃ e, c.compile name = (.error e, { c with
      files := c.files.discard (c.config.artifactPath name), builds := c.builds + 1 }) := by
  have confined : c.compiler.Confined := by
    rw [inProcess]
    exact Compiler.confined_inProcess
  rcases compile_cases confined name with ⟨target, bytes, makes, htarget, free, done⟩ | failed
  · obtain ⟨assembles, writable⟩ := makes.assembles inProcess
    exact Or.inl ⟨target, bytes, ⟨assembles, writable, htarget, free⟩, done⟩
  · exact Or.inr failed

/-! ## Building unless there is a unit -/

theorem build_definition {source : String} : c.build source c.config.definitionName =
    c.compileStored (some source) c.config.definitionName := by
  unfold build
  rw [if_neg]
  simp [alwaysRebuilds]

theorem build_of_lookup {source : String} (absent : c.lookup name = none) :
    c.build source name = c.compileStored (some source) name := by
  unfold build
  rw [absent, if_neg]
  simp

end BuildCache

end TemporalDB
