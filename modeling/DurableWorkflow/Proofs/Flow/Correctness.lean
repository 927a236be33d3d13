import DurableWorkflow.Proofs.Engine.Work
import DurableWorkflow.Proofs.Flow.Simulation

namespace DurableWorkflow

def Errand.call {ω : Type} (workflow : Workflow ω) (runId : String) : Errand → Call
  | start state       => .run runId { workflow.instantiate with state }
  | resume id payload => .resume runId id payload
  | retry             => .retry runId
  | cancel            => .cancel runId

namespace Flow

variable {ω : Type} {flow : Flow} {tasks : Dict (StepTask ω)} {now : Timestamp} {walk after : Walk}
  {world world' : ω} {runId : String} {workflow : Workflow ω} {engine : Engine ω}

theorem entry_awaits {step id : String} {wait : Wait} :
    (wait.entry step).awaits id = (resumeId step step = id && !wait.isResolved) := by
  rw [ResumeEntry.awaits, Walk.entry_id, Walk.entry_isResolved]

theorem resolve_snapshot (flow : Flow) (runId : String) (now : Timestamp) (payload : Option Json)
    {id : String} (h : walk.awaits id) :
    ∃ resolved, (walk.snapshot flow runId).resolve now id payload =
      (.ok resolved, (walk.resolve now payload).snapshot flow runId) := by
  rw [Walk.awaits] at h
  cases hw : walk.wait <;> simp [hw] at h
  case some wait =>
    have awaits : (wait.entry walk.position).awaits id := by simp [entry_awaits, h]
    have found : (walk.snapshot flow runId).pending.find? (ResumeEntry.awaits id) =
        some (wait.entry walk.position) := by
      simp [Walk.snapshot, hw, awaits]
    have updated (f : ResumeEntry → ResumeEntry) :
        updateFirst (ResumeEntry.awaits id) f (walk.snapshot flow runId).pending =
          [f (wait.entry walk.position)] := by
      simp [Walk.snapshot, hw, updateFirst, awaits]
    rw [Run.resolve, found]
    cases wait
    case event filter delivered =>
      refine ⟨true, ?_⟩
      dsimp only [Wait.entry] at updated ⊢
      rw [updated, Walk.resolve, hw]
      rfl
    case timer deadline fired =>
      have unfired : fired = false := h.2
      dsimp only [Wait.entry] at updated ⊢
      rw [Walk.resolve, hw]
      split
      case isTrue due =>
        refine ⟨true, ?_⟩
        rw [updated]
        simp [Walk.snapshot, Wait.resolve, Wait.entry, ResumeEntry.fire, due]
      case isFalse early =>
        refine ⟨false, ?_⟩
        simp [Walk.snapshot, Wait.resolve, hw, early]

theorem resolve_snapshot_error (flow : Flow) (runId : String) (now : Timestamp)
    (payload : Option Json) {id : String} (h : walk.awaits id = false) :
    (walk.snapshot flow runId).resolve now id payload =
      (.error (.unknownResume runId id), walk.snapshot flow runId) := by
  have missing : (walk.snapshot flow runId).pending.find? (ResumeEntry.awaits id) = none := by
    rw [Walk.awaits] at h
    cases hw : walk.wait <;> simp [hw, Walk.snapshot, entry_awaits] at h ⊢
    exact h
  rw [Run.resolve, missing]
  rfl

theorem cancel_snapshot :
    (walk.snapshot flow runId).cancel = walk.cancel.snapshot flow runId := by
  rw [Run.cancel, Walk.cancel, Walk.snapshot]
  cases hw : walk.wait
  case none => rfl
  case some wait =>
    cases hr : wait.isResolved <;>
      simp [Walk.snapshot, Walk.entry_isResolved, hr, Option.filter]

theorem Compiles.opened_eq (h : flow.Compiles tasks workflow) {start : Step} {state : Json}
    (hs : flow.beginStep? = some start) :
    engine.opened runId { workflow.instantiate with state } =
      (embark start engine.config state).snapshot flow runId := by
  have ⟨start', hs', at_start⟩ := h.startStep
  cases hs.symm.trans hs'
  rw [Engine.opened, Run.keepAuditLog, embark]
  cases engine.config.auditLog <;>
    simp [Walk.snapshot, Workflow.instantiate, Run.create, h.workflowType, at_start]

theorem Compiles.drive_eq (h : flow.Compiles tasks workflow) (on : walk.On flow) {config : Config} :
    (let (ending, run, world) := workflow.execute now config.budget (walk.snapshot flow runId) world
     let (ending, staged) := Engine.stage run ending
     (ending, staged, world)) =
      let (ending, staged, world) := flow.drive tasks config runId now walk world
      (ending, staged.map (Walk.snapshot flow runId), world) := by
  rw [h.execute_eq on, drive]
  rcases flow.pass tasks runId now config.budget walk world with ⟨ending, after, world⟩
  cases ending <;> rfl

theorem Compiles.work_eq (h : flow.Compiles tasks workflow)
    (registered : engine.workflows.get? flow.id = some workflow) (runId : String) (now : Timestamp)
    (errand : Errand) (world : ω) {loaded : Option Walk}
    (on : ∀ walk, loaded = some walk → walk.On flow) :
    engine.work now (errand.call workflow runId) (loaded.map (Walk.snapshot flow runId)) world =
      let (ending, staged, world) := flow.undertake tasks engine.config runId now world errand loaded
      (ending, staged.map (Walk.snapshot flow runId), world) := by
  have known : engine.workflow flow.id = .ok workflow := by
    rw [Engine.workflow, registered]
  cases loaded
  case none =>
    cases errand
    case start state =>
      have ⟨start, hs, _⟩ := h.startStep
      have on_start : (embark start engine.config state).On flow :=
        List.mem_map.mpr ⟨start, mem_of_beginStep? hs, rfl⟩
      refine (Engine.work_of_drive (.run rfl (h.workflowType.symm ▸ known))).trans ?_
      rw [h.opened_eq hs, undertake, hs]
      exact h.drive_eq on_start
    all_goals
      refine Engine.work_of_refused ?_
      simp [Engine.prepare, Errand.call, Engine.stored_only, Call.runId, bind, Except.bind]
  case some walk =>
    cases errand
    case start state =>
      refine Engine.work_of_refused ?_
      simp [Engine.prepare, Errand.call, known, Dict.contains, Call.runId, Workflow.instantiate,
        Run.create, h.workflowType, bind, Except.bind]
      rfl
    case resume id payload =>
      rw [undertake]
      cases ha : walk.awaits id
      case false =>
        refine Engine.work_of_refused ?_
        have hr := resolve_snapshot_error flow runId now payload ha
        simp [Engine.prepare, Errand.call, Engine.stored_only, Call.runId, known, hr, bind,
          Except.bind]
      case true =>
        obtain ⟨resolved, hr⟩ := resolve_snapshot flow runId now payload ha
        cases hc : walk.status.isClosed
        case true =>
          refine Engine.work_of_refused ?_
          simp [Engine.prepare, Errand.call, Engine.stored_only, Call.runId, known, hr, hc, bind,
            Except.bind]
          rfl
        case false =>
          refine (Engine.work_of_drive (.resume rfl known hr hc)).trans ?_
          exact h.drive_eq (show (walk.resolve now payload).On flow from on walk rfl)
    case retry =>
      dsimp only [undertake]
      split
      case isTrue failed =>
        refine (Engine.work_of_drive (.retry rfl failed known)).trans ?_
        exact h.drive_eq (on walk rfl)
      case isFalse going =>
        refine Engine.work_of_refused ?_
        simp [Engine.prepare, Errand.call, Engine.stored_only, Call.runId, going, bind, Except.bind]
        rfl
    case cancel =>
      dsimp only [undertake]
      cases hs : walk.status
      case finished =>
        refine Engine.work_of_refused ?_
        simp [Engine.prepare, Errand.call, Engine.stored_only, Call.runId, hs, bind, Except.bind]
        rfl
      case cancelled => exact Engine.work_eq_iff.mpr (.settled (.cancelled rfl hs))
      all_goals
        refine (Engine.work_eq_iff.mpr (.kept (.cancel rfl ?_))).trans ?_
        case refine_1 => simp [hs, RunStatus.isClosed]
        case refine_2 => rw [cancel_snapshot]; rfl

theorem drive_on (h : flow.WellFormed) {config : Config} (on : walk.On flow)
    (hs : (flow.drive tasks config runId now walk world).2.1 = some after) : after.On flow := by
  have on : (flow.pass tasks runId now config.budget walk world).2.1.On flow := pass_on h on
  rw [drive] at hs
  rcases hp : flow.pass tasks runId now config.budget walk world with
    ⟨_ | _ | _ | _ | _, last, world⟩ <;>
    rw [hp] at hs on <;> cases hs
  all_goals exact on

inductive SetsOff (flow : Flow) (config : Config) (now : Timestamp) :
    Errand → Option Walk → Walk → Prop
  | start {start : Step} {state : Json} (begins : flow.beginStep? = some start) :
      SetsOff flow config now (.start state) none (embark start config state)
  | resume {walk : Walk} {id : String} {payload : Option Json}
      (live : walk.status.isClosed = false) :
      SetsOff flow config now (.resume id payload) (some walk) (walk.resolve now payload)
  | retry {walk : Walk} (failed : walk.status = .failed) :
      SetsOff flow config now .retry (some walk) walk

-- An errand that leaves another walk drives one, or cancels the one that there is.
theorem undertake_staged {config : Config} {errand : Errand} {loaded : Option Walk}
    (hs : (flow.undertake tasks config runId now world errand loaded).2.1 = some after) :
    (∃ before, flow.SetsOff config now errand loaded before ∧
      (flow.drive tasks config runId now before world).2.1 = some after) ∨
    ∃ walk, loaded = some walk ∧ after = walk.cancel := by
  cases loaded
  case none =>
    cases errand <;> dsimp only [undertake] at hs
    case start state =>
      split at hs
      case h_1 begins => exact .inl ⟨_, .start begins, hs⟩
      case h_2        => cases hs
    all_goals cases hs
  case some walk =>
    cases errand <;> dsimp only [undertake] at hs
    case start => cases hs
    case resume id payload =>
      split at hs
      case isTrue => cases hs
      case isFalse =>
        split at hs
        case isTrue       => cases hs
        case isFalse live => exact .inl ⟨_, .resume (by simpa using live), hs⟩
    case retry =>
      split at hs
      case isTrue failed => exact .inl ⟨_, .retry failed, hs⟩
      case isFalse       => cases hs
    case cancel =>
      split at hs <;> cases hs
      exact .inr ⟨walk, rfl, rfl⟩

theorem undertake_on (h : flow.WellFormed) {config : Config} {errand : Errand}
    {loaded : Option Walk} (on : ∀ walk, loaded = some walk → walk.On flow)
    (hs : (flow.undertake tasks config runId now world errand loaded).2.1 = some after) :
    after.On flow := by
  obtain ⟨before, off, driven⟩ | ⟨walk, rfl, rfl⟩ := undertake_staged hs
  · refine drive_on h ?_ driven
    cases off with
    | start begins        => exact List.mem_map.mpr ⟨_, mem_of_beginStep? begins, rfl⟩
    | @resume walk        => exact on walk rfl
    | retry               => exact on before rfl
  · exact on walk rfl

end Flow

namespace Flow

variable {ω : Type} {flow : Flow} {tasks : Dict (StepTask ω)} {runId : String}
  {workflow : Workflow ω} {engine : Engine ω}

def undertakeAll (flow : Flow) (tasks : Dict (StepTask ω)) (config : Config) (runId : String) :
    List (Timestamp × ω × Errand) → Option Walk → List (CallEnd × ω) × Option Walk
  | [], walk => ([], walk)
  | (now, world, errand) :: rest, walk =>
    let (ending, staged, world) := flow.undertake tasks config runId now world errand walk
    let (ends, walk) := flow.undertakeAll tasks config runId rest (staged.or walk)
    ((ending, world) :: ends, walk)

theorem Compiles.performAll_eq (h : flow.Compiles tasks workflow)
    (registered : engine.workflows.get? flow.id = some workflow)
    {errands : List (Timestamp × ω × Errand)} {loaded : Option Walk} {store : Store}
    (on : ∀ walk, loaded = some walk → walk.On flow)
    (stored : store.get? runId = loaded.map (Walk.snapshot flow runId)) :
    let calls := errands.map fun (now, world, errand) => (now, world, errand.call workflow runId)
    let (ends, last) := flow.undertakeAll tasks engine.config runId errands loaded
    let (ends', store') := engine.performAll calls store
    ends' = ends ∧ store'.get? runId = last.map (Walk.snapshot flow runId) ∧
      ∀ other, runId ≠ other → store'.get? other = store.get? other := by
  induction errands generalizing store loaded
  case nil => exact ⟨rfl, stored, fun _ _ => rfl⟩
  case cons occasion rest ih =>
    obtain ⟨now, world, errand⟩ := occasion
    have addressed : (errand.call workflow runId).runId = runId := by cases errand <;> rfl
    have work := h.work_eq registered runId now errand world on
    simp only [List.map_cons, Engine.performAll, undertakeAll, Engine.perform_eq, addressed, stored,
      work]
    rcases hu : flow.undertake tasks engine.config runId now world errand loaded with
      ⟨ending, staged, world⟩
    have stored' : (store.commit runId (staged.map (Walk.snapshot flow runId))).get? runId =
        (staged.or loaded).map (Walk.snapshot flow runId) := by
      rw [Store.get?_commit_self, stored]
      cases staged <;> rfl
    have on (walk : Walk) (hw : staged.or loaded = some walk) : walk.On flow := by
      cases staged
      case none      => exact on walk hw
      case some last => exact undertake_on h.wellFormed on ((congrArg (·.2.1) hu).trans hw)
    obtain ⟨ends, last, others⟩ := ih on stored'
    refine ⟨by rw [ends], last, fun other hne => ?_⟩
    rw [others other hne, Store.get?_commit_of_ne hne]

structure Means (flow : Flow) (tasks : Dict (StepTask ω)) (workflow : Workflow ω) : Prop where
  -- Every pass from wherever a walk may be is the pass of the walk.
  passes : ∀ (runId : String) (now : Timestamp) (budget : Budget) (walk : Walk) (world : ω),
    walk.On flow →
      workflow.execute now budget (walk.snapshot flow runId) world =
        flow.shown runId (flow.pass tasks runId now budget walk world)
  -- Whatever is asked of a run, from its start on: it ends as it does for the walk, and the run that
  -- is stored is the one that stands for the walk. Other runs are not touched.
  calls : ∀ (engine : Engine ω), engine.workflows.get? flow.id = some workflow →
    ∀ (runId : String) (errands : List (Timestamp × ω × Errand)) (store : Store),
      store.get? runId = none →
        let calls := errands.map fun (now, world, errand) => (now, world, errand.call workflow runId)
        let (ends, last) := flow.undertakeAll tasks engine.config runId errands none
        let (ends', store') := engine.performAll calls store
        ends' = ends ∧ store'.get? runId = last.map (Walk.snapshot flow runId) ∧
          ∀ other, runId ≠ other → store'.get? other = store.get? other

end Flow

theorem Workflow.ofFlow_means {ω : Type} {flow : Flow} {tasks : Dict (StepTask ω)}
    (valid : flow.validate = .returned []) (covered : flow.Covered tasks) :
    ∃ workflow, ofFlow flow tasks = .returned (.ok workflow) ∧ flow.Means tasks workflow := by
  have ⟨workflow, compiled⟩ := exists_ofFlow (Flow.validate_eq_nil_iff.mp valid) covered
  have compiles := ofFlow_compiles compiled
  refine ⟨workflow, compiled, fun _ _ _ _ _ on => compiles.execute_eq on, ?_⟩
  intro engine registered runId errands store new
  exact compiles.performAll_eq registered (fun _ (h : none = some _) => nomatch h) new

namespace Flow.Approval

def count : StepTask Nat := fun _ _ attempts =>
  if attempts = 0 then (.failed "busy", 1)
  else (.returned (.ofMembers [("n", .nat attempts)]), attempts + 1)

def flow : Flow where
  id := "approval"
  name := "Approval"
  version := "1"
  globalStateSchema := none
  state := none
  steps := [
    ⟨"start", "", .begin, none⟩,
    ⟨"count", "", .task none none, none⟩,
    ⟨"enough", "", .decision, none⟩,
    ⟨"pause", "", .resumeAfter "10 minutes", none⟩,
    ⟨"approve", "", .waitForEvent none none, none⟩,
    ⟨"done", "", .finish, none⟩]
  connections := [
    ⟨"1", "start", "count", none⟩,
    ⟨"2", "count", "enough", none⟩,
    ⟨"3", "enough", "approve", none⟩,
    ⟨"4", "enough", "pause", some "state.n < 2"⟩,
    ⟨"5", "pause", "count", none⟩,
    ⟨"6", "approve", "done", none⟩]
  metadata := none

def tasks : Dict (StepTask Nat) :=
  .ofPairs [("count", count)]

theorem wellFormed : flow.WellFormed :=
  validate_eq_nil_iff.mp (by decide +kernel)

theorem covered : flow.Covered tasks := by
  rw [Covered]
  decide +kernel

theorem approval_means :
    flow.validate = .returned [] ∧ flow.Covered tasks ∧
      ∃ workflow, Workflow.ofFlow flow tasks = .returned (.ok workflow) ∧
        flow.Means tasks workflow :=
  ⟨validate_eq_nil_iff.mpr wellFormed, covered,
    Workflow.ofFlow_means (validate_eq_nil_iff.mpr wellFormed) covered⟩

end Flow.Approval

end DurableWorkflow
