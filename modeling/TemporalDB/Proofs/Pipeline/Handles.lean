import TemporalDB.Proofs.ExecutionUnit
import TemporalDB.Proofs.Loader.Handles
import TemporalDB.Proofs.Pipeline.Definition
import TemporalDB.Tags.Numbered

/-!
# Handles are accounted for

Whatever a pipeline does, it takes back each unit that it loads, so that it can always be shut down.
Whoever uses a loader directly is told at a shutdown of a unit that is still in use.
-/

namespace TemporalDB

variable {l l' : Loader} {files : FileTree} {path : Path} {symbols : List String}
  {u : ExecutionUnit}

namespace Loader

theorem live_keep (o : OpenUnit) : (l.keep path o).live = o.serial :: l.live := by
  cases kept : l.kept.find? path.parts with
  | some o' => rw [keep_of_kept kept]
  | none => rw [keep_of_absent kept]

theorem live_release_load (h : l.load files path symbols = (.ok u, l')) :
    (l'.release u).live = l.live := by
  rcases l.load_cases files path symbols with ⟨o, -, done⟩ | ⟨e, failed⟩
  · cases done.symm.trans h
    change (l.keep path o).live.erase o.serial = l.live
    rw [live_keep, List.erase_cons_head]
  · cases failed.symm.trans h

theorem shutdown_of_unused (unused : l.live = []) : l.shutdown.1 = .ok () := by
  have none_used : l.kept.values.find? (fun o => decide (l.outstanding o ≠ 0)) = none := by
    rw [List.find?_eq_none]
    intro o _
    unfold outstanding
    rw [unused]
    simp
  unfold shutdown
  dsimp only
  rw [none_used]

end Loader

namespace Pipeline

variable {p p' : Pipeline} {d : Definition} {q : QueryArtifact}

theorem live_consult (path : Path) (symbols : List String) :
    (p.consult path symbols).loader.live = p.loader.live := by
  cases done : p.loader.load p.files path symbols with
  | mk result l =>
      cases result with
      | error e =>
          rw [consult_of_error done]
          exact congrArg Loader.live (Loader.eq_of_load_error done)
      | ok u =>
          rw [consult_of_ok done]
          exact Loader.live_release_load done

variable [Tags]

theorem live_compileSchema (text : String) :
    (p.compileSchema text).2.loader.live = p.loader.live := by
  cases parsed : Sql.parseSchema text with
  | error e =>
      unfold compileSchema
      rw [parsed]
  | ok schema =>
      rw [compileSchema_of_parsed parsed]
      split
      · rfl
      · rfl

theorem live_compileQuery (text : String) (d : Definition) :
    (p.compileQuery text d).2.loader.live = p.loader.live := by
  cases found : p.cache.lookup (Fingerprint.of text).artifactName with
  | some artifact => rw [compileQuery_of_lookup found]
  | none =>
      cases hplanned : planned text d.schema with
      | error e => rw [compileQuery_of_error found hplanned]
      | ok listing =>
          rw [compileQuery_of_ok found hplanned]
          split
          · rfl
          · dsimp only
            split
            · rfl
            · rfl

/-- The unit of a query is in use once it is loaded, and nothing else is. -/
theorem live_loadQuery {result : Except RunError ExecutionUnit}
    (done : p.loadQuery q = (result, p')) :
    match result with
    | .error _ => p'.loader.live = p.loader.live
    | .ok u => (p'.loader.release u).live = p.loader.live := by
  rcases p.loadQuery_cases q with ⟨o, loads, loaded⟩ | ⟨e, -, gaveUp | recovered⟩
  · cases loaded.symm.trans done
    exact Loader.live_release_load (Loader.load_eq_ok loads)
  · cases gaveUp.symm.trans done
    rfl
  · rcases p.recover_outcomes q with ⟨e, evicted, -, stuck⟩ |
      ⟨evicted, e, after, -, -, failed⟩ | ⟨evicted, status, after, -, -, rebuilt⟩
    · cases (recovered.trans stuck).symm.trans done
      rfl
    · cases (recovered.trans failed).symm.trans done
      rfl
    · cases again : (p.loader.invalidate q.artifact).load after.files q.artifact
          [EntryPoint.query] with
      | mk loaded l =>
          rw [again] at rebuilt
          cases (recovered.trans rebuilt).symm.trans done
          cases loaded with
          | error e => exact (congrArg Loader.live (Loader.eq_of_load_error again) : l.live = _)
          | ok u => exact (Loader.live_release_load again : (l.release u).live = _)

theorem live_runQuery (q : QueryArtifact) (db : Database) (params : List String) (explain : Bool)
    (now : Instant) :
    (p.runQuery q db params explain now).2.2.loader.live = p.loader.live := by
  cases done : p.loadQuery q with
  | mk result p' =>
      have live := live_loadQuery done
      cases result with
      | error e =>
          rw [runQuery_of_error done]
          exact live
      | ok u =>
          rw [runQuery_of_ok done]
          exact live

/-- **Every step takes back what it loads**, whatever came of it. -/
theorem live_step (s : Step) : (p.step s).loader.live = p.loader.live := by
  cases s with
  | compileSchema text => rw [step_compileSchema, live_compileSchema]
  | openDatabase d now => rw [step_openDatabase, openDatabase_snd, live_consult]
  | getSize d db table => rw [step_getSize, getSize_snd, live_consult]
  | compileQuery text d => rw [step_compileQuery, live_compileQuery]
  | runQuery q db params explain now => rw [step_runQuery, live_runQuery]
  | shutdown =>
      change p.loader.shutdown.2.live = p.loader.live
      rw [Loader.shutdown_snd]
  | restart => rfl

theorem live_run (steps : List Step) : (p.run steps).loader.live = p.loader.live := by
  induction steps using List.reverseRecOn with
  | nil => rfl
  | append_singleton steps s ih =>
      rw [run_snoc, live_step, ih]

end Pipeline

/-- **Handles are accounted for.** After any actions on a loader, a shutdown leaves nothing open. It
reports a unit just if one is in use that shares what is kept open, and then with the number of all
that share it. A load that fails changes nothing. A loaded unit is never said to lack what it was
loaded for, and always what it was not, without a change of the database. A pipeline can be shut
down after any steps. -/
theorem handles_accounted [Tags] (keepOpen : Bool) (files : FileTree) (actions : List Loader.Action) :
    let s := (Loader.Holdings.start keepOpen files).run actions
    s.loader.shutdown.2.openUnits = 0 ∧
      ((∃ e, s.loader.shutdown.1 = .error e) ↔ ∃ h ∈ s.held, h.shares keepOpen = true) ∧
      (∀ e, s.loader.shutdown.1 = .error e → ∃ path,
        e = .inUse path (s.sharing keepOpen path.parts) ∧ 0 < s.sharing keepOpen path.parts) ∧
      (∀ path symbols e, (s.loader.load s.files path symbols).1 = .error e →
        (s.loader.load s.files path symbols).2 = s.loader) ∧
      (∀ path symbols u, (s.loader.load s.files path symbols).1 = .ok u → ∀ call db,
        (call.symbol ∈ symbols → ∀ missing lacking,
          (u.invoke db call).1 ≠ .error (.load (.symbolMissing missing lacking))) ∧
        (call.symbol ∉ symbols →
          u.invoke db call = (.error (.load (.symbolMissing call.symbol path)), db))) ∧
      ∀ config compiler steps,
        ((Pipeline.new config compiler files).run steps).shutdown.1 = .ok () := by
  intro s
  have acc : Loader.Accounted keepOpen s := Loader.accounted_run keepOpen files actions
  refine ⟨?_, ?_, ?_, ?_, ?_, ?_⟩
  · rw [Loader.shutdown_snd]
    rfl
  · constructor
    · rintro ⟨e, failed⟩
      rcases acc.shutdown_cases with ⟨done, -⟩ | ⟨path, -, used⟩
      · cases done.symm.trans failed
      · obtain ⟨h, held, shares⟩ := List.countP_pos_iff.mp used
        exact ⟨h, held, (Bool.and_eq_true_iff.mp shares).1⟩
    · rintro ⟨h, held, shares⟩
      rcases acc.shutdown_cases with ⟨-, unshared⟩ | ⟨path, failed, -⟩
      · exact absurd shares (by rw [unshared h held]; exact Bool.false_ne_true)
      · exact ⟨_, failed⟩
  · intro e failed
    rcases acc.shutdown_cases with ⟨done, -⟩ | ⟨path, reported, used⟩
    · cases done.symm.trans failed
    · cases reported.symm.trans failed
      exact ⟨path, rfl, used⟩
  · intro path symbols e failed
    exact Loader.eq_of_load_error (Prod.ext failed rfl)
  · intro path symbols u loaded call db
    rcases s.loader.load_cases s.files path symbols with ⟨o, loads, done⟩ | ⟨e, failed⟩
    · rw [done] at loaded
      cases loaded
      constructor
      · intro asked missing lacking
        exact ExecutionUnit.invoke_of_mem db asked (loads.provides _ asked) _
      · intro unasked
        exact ExecutionUnit.invoke_of_not_mem (u := ⟨path, _, _, symbols⟩) db unasked
    · rw [failed] at loaded
      cases loaded
  · intro config compiler steps
    exact Loader.shutdown_of_unused (Pipeline.live_run steps)

/-! ## A unit that is shared -/

def storedPath : Path := ⟨"db.unit"⟩

/-- Files with the definition of a schema without relations. -/
def stored : FileTree :=
  (FileTree.new []).assign ([] ++ ["db.unit"])
    (some (Assembly.definitionUnit ⟨[]⟩).artifact.toUTF8)

theorem loads_stored : (Loader.new true).Loads stored storedPath [EntryPoint.getSize]
    ⟨storedPath, 0, Assembly.definitionUnit ⟨[]⟩⟩ := by
  have found : stored.read storedPath = .ok (Assembly.definitionUnit ⟨[]⟩).artifact.toUTF8 :=
    FileTree.read_eq_ok_iff.mpr ⟨[] ++ ["db.unit"], rfl, FileTree.node?_assign_self⟩
  have fits : (Assembly.definitionUnit ⟨[]⟩).program.Fits := by
    simp [Assembly.definitionUnit, Program.Fits, Schema.Fits]
  exact Loader.loads_artifact fits rfl (fun s hs => provides_definitionUnit s (by
    simp [List.mem_singleton.mp hs])) rfl found

/-- The unit is loaded, and loaded again while it is in use. -/
def sharing : List Loader.Action :=
  [.load storedPath [EntryPoint.getSize], .load storedPath [EntryPoint.getSize]]

theorem run_sharing :
    let o : OpenUnit := ⟨storedPath, 0, Assembly.definitionUnit ⟨[]⟩⟩
    let u : ExecutionUnit := ⟨storedPath, 0, o.unit, [EntryPoint.getSize]⟩
    (Loader.Holdings.start true stored).run sharing =
      ⟨⟨true, .insert .empty storedPath.parts o, 1, [0, 0]⟩, stored,
        [⟨u, []⟩, ⟨u, [.load storedPath [EntryPoint.getSize]]⟩]⟩ := by
  intro o u
  have kept : ((Loader.new true).keep storedPath o).kept.find? storedPath.parts = some o :=
    Loader.find?_keep_self rfl rfl
  have again : ((Loader.new true).keep storedPath o).Loads stored storedPath [EntryPoint.getSize] o :=
    ⟨Loader.find_of_kept kept, loads_stored.provides⟩
  have first : (Loader.Holdings.start true stored).step (.load storedPath [EntryPoint.getSize]) =
      ⟨(Loader.new true).keep storedPath o, stored, [⟨u, []⟩]⟩ := Loader.Holdings.step_load loads_stored
  have both : ((Loader.new true).keep storedPath o).keep storedPath o =
      ⟨true, .insert .empty storedPath.parts o, 1, [0, 0]⟩ := by
    rw [Loader.keep_of_kept kept, Loader.keep_of_absent rfl]
    rfl
  unfold Loader.Holdings.run sharing
  rw [List.foldl_cons, List.foldl_cons, List.foldl_nil, first, ← both]
  exact Loader.Holdings.step_load again

/-- A unit is loaded twice and read once. A shutdown reports that both loads still use it; once they
have been taken back, it reports nothing. -/
theorem handles_accounted_shared :
    ((Loader.Holdings.start true stored).run sharing).held.length = 2 ∧
      ((Loader.Holdings.start true stored).run sharing).loader.reads = 1 ∧
      ((Loader.Holdings.start true stored).run sharing).loader.shutdown.1 =
        .error (.inUse storedPath 2) ∧
      ((Loader.Holdings.start true stored).run
        (sharing ++ [.release 0, .release 0])).loader.shutdown.1 = .ok () := by
  obtain ⟨-, reported, -⟩ := handles_accounted true stored (sharing ++ [.release 0, .release 0])
  have unheld : ((Loader.Holdings.start true stored).run
      (sharing ++ [.release 0, .release 0])).held = [] := by
    rw [Loader.Holdings.run_append, run_sharing]
    rfl
  rw [unheld] at reported
  rw [run_sharing]
  refine ⟨?_, ?_, ?_, ?_⟩
  · rfl
  · rfl
  · rfl
  · cases closed : ((Loader.Holdings.start true stored).run
      (sharing ++ [.release 0, .release 0])).loader.shutdown.1 with
    | ok _ => rfl
    | error e =>
        obtain ⟨h, held, -⟩ := reported.mp ⟨e, closed⟩
        cases held

end TemporalDB
