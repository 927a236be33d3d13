import DurableWorkflow.Proofs.Engine.Course
import DurableWorkflow.Proofs.Flow.Correctness

namespace DurableWorkflow

def Step.Expects (step : Step) (entry : ResumeEntry) : Prop :=
  entry.id = resumeId step.id step.id ∧
    match step.kind with
    | .resumeAfter _        => entry.isTimer
    | .waitForEvent input _ => entry.filter? = some ((input.map (·.value)).getD .null)
    | _                     => False

-- Between two calls, a run of a compiled flow is at one of the steps and either waits there for one
-- entry of that step, or for nothing. So it can always be told what resumes it.
structure Flow.AtRest (flow : Flow) (run : Run) : Prop where
  settled : run.status ≠ .running
  placed  : run.currentStep ∈ flow.stepIds
  parked  : run.status = .suspended → ∃ step ∈ flow.steps, ∃ entry,
    step.id = run.currentStep ∧ run.pending = [entry] ∧ entry.isResolved = false ∧ step.Expects entry
  idle    : run.status ≠ .suspended → run.pending = []

structure Walk.AtRest (flow : Flow) (walk : Walk) : Prop extends Walk.Proper flow walk where
  settled : walk.status ≠ .running
  parked  : walk.status = .suspended → ∃ wait, walk.wait = some wait ∧ wait.isResolved = false
  cleared : walk.status = .suspended → walk.error = none
  idle    : walk.status ≠ .suspended → walk.wait = none

theorem Step.Awaits.resolve {step : Step} {wait : Wait} (h : step.Awaits wait) (now : Timestamp)
    (payload : Option Json) : step.Awaits (wait.resolve now payload) := by
  cases wait <;> exact h

theorem Step.Awaits.expects {step : Step} {wait : Wait} (h : step.Awaits wait) :
    step.Expects (wait.entry step.id) := by
  refine ⟨Walk.entry_id, ?_⟩
  cases wait
  case timer =>
    have ⟨duration, hk⟩ := h
    rw [hk]
    rfl
  case event =>
    have ⟨input, output, hk, hf⟩ := h
    rw [hk, hf]
    rfl

namespace Walk

variable {flow : Flow} {walk after : Walk} {runId : String}

theorem Proper.resolve (h : walk.Proper flow) (now : Timestamp) (payload : Option Json) :
    (walk.resolve now payload).Proper flow where
  on := h.on
  awaits := by
    intro wait hw
    have ⟨old, ho, heq⟩ := Option.map_eq_some_iff.mp hw
    have ⟨step, hs, awaits⟩ := h.awaits old ho
    exact ⟨step, hs, heq ▸ awaits.resolve now payload⟩

theorem Proper.launch (h : walk.Proper flow) : walk.launch.Proper flow :=
  ⟨h.on, h.awaits⟩

theorem Proper.cancel (h : walk.Proper flow) : walk.cancel.Proper flow where
  on             := h.on
  awaits wait hw := h.awaits wait (Option.filter_eq_some_iff.mp hw).1

theorem proper_of_idle (on : walk.On flow) (idle : walk.wait = none) : walk.Proper flow :=
  ⟨on, fun _ hw => nomatch idle.symm.trans hw⟩

theorem atRest_of_idle (on : walk.On flow) (idle : walk.wait = none)
    (settled : walk.status ≠ .running) (hs : walk.status ≠ .suspended) : walk.AtRest flow :=
  { proper_of_idle on idle with
    settled
    parked  := fun h => absurd h hs
    cleared := fun h => absurd h hs
    idle    := fun _ => idle }

theorem AtRest.cancel (h : walk.AtRest flow) : walk.cancel.AtRest flow := by
  refine atRest_of_idle h.on ?_ nofun nofun
  by_cases hs : walk.status = .suspended
  case pos =>
    have ⟨wait, hw, unresolved⟩ := h.parked hs
    simp [Walk.cancel, hw, Option.filter, unresolved]
  case neg => simp [Walk.cancel, h.idle hs]

theorem AtRest.awaits_iff (h : walk.AtRest flow) {id : String} :
    walk.awaits id ↔ walk.status = .suspended ∧ id = resumeId walk.position walk.position := by
  by_cases hs : walk.status = .suspended
  case pos =>
    have ⟨wait, hw, unresolved⟩ := h.parked hs
    simp [Walk.awaits, hw, unresolved, hs, eq_comm]
  case neg => simp [Walk.awaits, h.idle hs, hs]

theorem AtRest.snapshot (h : walk.AtRest flow) : flow.AtRest (walk.snapshot flow runId) where
  settled := h.settled
  placed  := h.on
  parked := by
    intro hs
    have ⟨wait, hw, unresolved⟩ := h.parked hs
    have ⟨step, hstep, awaits⟩ := h.awaits wait hw
    have hid : step.id = walk.position := by simpa using List.find?_some hstep
    refine ⟨step, List.mem_of_find?_eq_some hstep, wait.entry walk.position, hid, ?_, ?_, ?_⟩
    · simp [Walk.snapshot, hw]
    · rw [entry_isResolved, unresolved]
    · exact hid ▸ awaits.expects
  idle := by
    intro hs
    simp [Walk.snapshot, h.idle hs]

end Walk

namespace Flow

variable {ω : Type} {flow : Flow} {tasks : Dict (StepTask ω)} {now : Timestamp} {walk after : Walk}
  {world world' : ω} {runId : String} {budget : Budget}

theorem Rounds.atRest {ending : PassEnd} (h : Rounds flow walk (some ending) after)
    (proper : walk.Proper flow) (cleared : walk.error = none) (panicked : ending ≠ .panicked) :
    after.AtRest flow := by
  have on : after.On flow := h.on proper.on
  cases h with
  | @suspended _ wait stays status error waits unresolved awaits =>
    obtain ⟨step, hs, awaits⟩ := awaits proper
    refine {
      on
      awaits  := fun other hw => ⟨step, stays ▸ hs, ?_⟩
      settled := by simp [status]
      parked  := fun _ => ⟨wait, waits, unresolved⟩
      cleared := fun _ => error.trans cleared
      idle    := fun hn => absurd status hn
    }
    cases waits.symm.trans hw
    exact awaits
  | finished _ status idle =>
    exact Walk.atRest_of_idle on idle (by simp [status]) (by simp [status])
  | failed _ status idle =>
    exact Walk.atRest_of_idle on (idle proper) (by simp [status]) (by simp [status])
  | panicked => exact absurd rfl panicked

-- A pass that comes to its end leaves a walk at rest, if a step is visited or there is nothing left
-- to wait for. A failed walk that may not visit any step keeps what it waited for.
theorem travel_arrives (h : flow.WellFormed) {left : Nat} {ending : PassEnd}
    (proper : walk.Proper flow) (cleared : walk.error = none)
    (ht : flow.travel tasks now budget left walk world = (ending, after, world'))
    (panicked : ending ≠ .panicked) (unfinished : ending ≠ .unfinished) :
    after.Proper flow ∧
      ((∀ limit, budget = .limited limit → left = 0 → walk.wait = none) → after.AtRest flow) := by
  induction left generalizing walk world
  case zero =>
    cases budget <;> cases ht
    case limited =>
      refine ⟨⟨proper.on, proper.awaits⟩, fun started => ?_⟩
      exact Walk.atRest_of_idle proper.on (started _ rfl rfl) nofun nofun
    case unlimited => exact absurd rfl unfinished
  case succ left ih =>
    rw [travel] at ht
    rcases hr : flow.round tasks now walk world with ⟨_ | result, next, world₁⟩ <;> rw [hr] at ht
    case none =>
      cases round_rounds h proper.on hr with
      | moved known _ error idle =>
        obtain ⟨proper, rests⟩ := ih (Walk.proper_of_idle known idle) (error.trans cleared) ht
        exact ⟨proper, fun _ => rests fun _ _ _ => idle⟩
    case some =>
      cases ht
      have rests := (round_rounds h proper.on hr).atRest proper cleared panicked
      exact ⟨rests.toProper, fun _ => rests⟩

theorem drive_arrives (h : flow.WellFormed) {config : Config} (proper : walk.Proper flow)
    (live : walk.status.isClosed = false)
    (hs : (flow.drive tasks config runId now walk world).2.1 = some after) :
    after.Proper flow ∧ (config.maxSteps ≠ some 0 → after.AtRest flow) := by
  have started (limit : config.maxSteps ≠ some 0) (n : Nat) (hb : config.budget = .limited n)
      (hr : config.budget.rounds = 0) : walk.launch.wait = none := by
    rw [hb, Budget.rounds] at hr
    rw [hr, Config.budget] at hb
    split at hb
    case h_1 hm => cases hb; exact absurd hm limit
    case h_2    => cases hb
  have arrives {ending : PassEnd} {last : Walk} {world' : ω}
      (hp : flow.pass tasks runId now config.budget walk world = (ending, last, world'))
      (panicked : ending ≠ .panicked) (unfinished : ending ≠ .unfinished) :
      last.Proper flow ∧ (config.maxSteps ≠ some 0 → last.AtRest flow) := by
    rw [pass, live] at hp
    obtain ⟨proper, rests⟩ := travel_arrives h proper.launch rfl hp panicked unfinished
    exact ⟨proper, fun limit => rests (started limit)⟩
  rw [drive] at hs
  rcases hp : flow.pass tasks runId now config.budget walk world with
    ⟨_ | _ | _ | _ | _, last, world'⟩ <;>
    rw [hp] at hs <;> cases hs
  all_goals exact arrives hp (by rintro ⟨⟩) (by rintro ⟨⟩)

theorem drive_passed {config : Config}
    (returned : (flow.drive tasks config runId now walk world).1.returned) :
    ∃ result, (flow.drive tasks config runId now walk world).1 = .passed result := by
  rw [drive] at returned ⊢
  generalize flow.pass tasks runId now config.budget walk world = passed at returned ⊢
  obtain ⟨_ | _ | _ | _ | _, last, world'⟩ := passed
  case finished   => exact ⟨_, rfl⟩
  case suspended  => exact ⟨_, rfl⟩
  case failed     => exact ⟨_, rfl⟩
  case panicked   => cases returned
  case unfinished => cases returned

theorem embark_proper {start : Step} {config : Config} {state : Json}
    (hs : flow.beginStep? = some start) : (embark start config state).Proper flow :=
  Walk.proper_of_idle (List.mem_map.mpr ⟨start, mem_of_beginStep? hs, rfl⟩) rfl

theorem undertake_atRest (h : flow.WellFormed) {config : Config} (limit : config.maxSteps ≠ some 0)
    {errand : Errand} {loaded : Option Walk}
    (rests : ∀ walk, loaded = some walk → walk.AtRest flow)
    (hs : (flow.undertake tasks config runId now world errand loaded).2.1 = some after) :
    after.AtRest flow := by
  obtain ⟨before, off, driven⟩ | ⟨walk, rfl, rfl⟩ := undertake_staged hs
  · cases off with
    | start begins => exact (drive_arrives h (embark_proper begins) rfl driven).2 limit
    | @resume walk _ _ live =>
      exact (drive_arrives h ((rests walk rfl).toProper.resolve now _) live driven).2 limit
    | retry failed =>
      exact (drive_arrives h (rests before rfl).toProper (by rw [failed]; rfl) driven).2 limit
  · exact (rests walk rfl).cancel

end Flow

namespace Engine

variable {ω : Type} {engine : Engine ω} {flow : Flow} {tasks : Dict (StepTask ω)}
  {workflow : Workflow ω} {runId : String} {now : Timestamp} {world world' : ω} {s : State ω}

def Rests (flow : Flow) (runId : String) (run : Run) : Prop :=
  ∃ walk : Walk, run = walk.snapshot flow runId ∧ walk.AtRest flow

theorem errand_rests (h : flow.Compiles tasks workflow)
    (registered : engine.workflows.get? flow.id = some workflow)
    (limit : engine.config.maxSteps ≠ some 0) (errand : Errand) (loaded : Option Walk) {run : Run}
    {ending : CallEnd} (rests : ∀ walk, loaded = some walk → walk.AtRest flow)
    (hw : engine.work now (errand.call workflow runId) (loaded.map (Walk.snapshot flow runId)) world =
      (ending, some run, world')) : Rests flow runId run := by
  rw [h.work_eq registered runId now errand world fun walk hl => (rests walk hl).on] at hw
  rcases hu : flow.undertake tasks engine.config runId now world errand loaded with
    ⟨_, _ | walk, _⟩ <;> rw [hu] at hw <;> cases hw
  exact ⟨walk, rfl, Flow.undertake_atRest h.wellFormed limit rests (congrArg (·.2.1) hu)⟩

theorem work_rests (h : flow.Compiles tasks workflow)
    (registered : engine.workflows.get? flow.id = some workflow)
    (limit : engine.config.maxSteps ≠ some 0) {call : Call} {run run' : Run} {ending : CallEnd}
    (addressed : call.runId = runId) (rests : Rests flow runId run)
    (hw : engine.work now call (some run) world = (ending, some run', world')) :
    Rests flow runId run' := by
  obtain ⟨walk, rfl, rests⟩ := rests
  subst addressed
  have rests (other : Walk) (hl : some walk = some other) : other.AtRest flow := by
    cases hl
    exact rests
  cases call
  case run               => exact nomatch loaded_eq_none_of_run hw
  case resume id payload =>
    exact errand_rests h registered limit (.resume id payload) (some walk) rests hw
  case retry             => exact errand_rests h registered limit .retry (some walk) rests hw
  case cancel            => exact errand_rests h registered limit .cancel (some walk) rests hw

theorem Life.rests {state : Json} (h : flow.Compiles tasks workflow)
    (registered : engine.workflows.get? flow.id = some workflow)
    (limit : engine.config.maxSteps ≠ some 0)
    (life : Life engine runId { workflow.instantiate with state } s) :
    ∃ run, s.store.get? runId = some run ∧ Rests flow runId run := by
  obtain ⟨staged, work, hs⟩ := perform_eq_iff.mp life.started
  obtain ⟨run, rfl⟩ := exists_staged_of_passed work
  have stored : life.store.get? runId = some run := by
    rw [hs]
    simp only [Call.runId, Store.get?_commit_self, Option.some_or]
  rw [loaded_eq_none_of_run work] at work
  have rests : Rests flow runId run :=
    errand_rests h registered limit (.start state) none (by rintro _ ⟨⟩) work
  exact life.course.invariant (work_rests h registered limit) ⟨run, stored, rests⟩

-- A resume that comes to its end makes a pass exactly if the run is suspended, and the id is that of
-- the step where it is.
def ResumedByStep (engine : Engine ω) (runId : String) (store : Store) (run : Run) : Prop :=
  ∀ (now : Timestamp) (id : String) (payload : Option Json) (world : ω),
    let ending := (engine.perform now (.resume runId id payload) store world).1
    ending.returned →
      ((∃ result, ending = .passed result) ↔
        run.status = .suspended ∧ id = resumeId run.currentStep run.currentStep)

theorem Rests.resumedByStep (h : flow.Compiles tasks workflow)
    (registered : engine.workflows.get? flow.id = some workflow) {run : Run} {store : Store}
    (stored : store.get? runId = some run) (rests : Rests flow runId run) :
    engine.ResumedByStep runId store run := by
  intro now id payload world ending returned
  obtain ⟨walk, rfl, rests⟩ := rests
  have on (other : Walk) (hl : some walk = some other) : other.On flow := by
    cases hl
    exact rests.on
  have performed : ending =
      (flow.undertake tasks engine.config runId now world (.resume id payload) (some walk)).1 := by
    have work := h.work_eq registered runId now (.resume id payload) world on
    simp only [ending]
    rw [perform_eq, Call.runId, stored]
    exact congrArg Prod.fst work
  rw [performed] at returned ⊢
  refine Iff.trans ?_ rests.awaits_iff
  dsimp only [Flow.undertake] at returned ⊢
  cases ha : walk.awaits id
  case false => simp
  case true =>
    have live : walk.status.isClosed = false := by
      rw [(rests.awaits_iff.mp ha).1]
      rfl
    simp only [ha, live] at returned ⊢
    simpa using Flow.drive_passed returned

theorem Life.flow_at_rest {state : Json}
    (compiled : Workflow.ofFlow flow tasks = .returned (.ok workflow))
    (registered : engine.workflows.get? flow.id = some workflow)
    (limit : engine.config.maxSteps ≠ some 0)
    (life : Life engine runId { workflow.instantiate with state } s) :
    ∃ run, s.store.get? runId = some run ∧ flow.AtRest run ∧
      engine.ResumedByStep runId s.store run := by
  have h := Workflow.ofFlow_compiles compiled
  have ⟨run, stored, rests⟩ := life.rests h registered limit
  refine ⟨run, stored, ?_, rests.resumedByStep h registered stored⟩
  obtain ⟨walk, rfl, rests⟩ := rests
  exact rests.snapshot

end Engine

namespace Flow.Approval

open Engine

def workflow : Workflow Nat :=
  match Workflow.ofFlow flow tasks with
  | .returned (.ok workflow) => workflow
  | _                        => ⟨"", "", .null, .empty⟩

theorem compiled : Workflow.ofFlow flow tasks = .returned (.ok workflow) := by
  have ⟨_, h⟩ := Workflow.exists_ofFlow wellFormed covered
  rw [workflow, h]

def office : Engine Nat :=
  ⟨Dict.ofPairs [("approval", workflow)], .standard⟩

def calls : List Call :=
  [.retry "r", .resume "r" "pause:pause" none, .resume "r" "approve:approve" none]

def morning : State Nat :=
  ⟨.empty, 0, .epoch⟩

def evening : State Nat :=
  calls.foldl (State.after office)
    (morning.after office (.run "r" { workflow.instantiate with state := .null }))

def life : Life office "r" { workflow.instantiate with state := .null } evening :=
  .ofCalls morning calls (by decide +kernel) (by decide +kernel)

theorem approval_at_rest :
    Workflow.ofFlow flow tasks = .returned (.ok workflow) ∧
      office.workflows.get? flow.id = some workflow ∧ office.config.maxSteps ≠ some 0 ∧
      ∃ run, evening.store.get? "r" = some run ∧ flow.AtRest run ∧
        office.ResumedByStep "r" evening.store run :=
  ⟨compiled, rfl, nofun, life.flow_at_rest compiled rfl nofun⟩

end Flow.Approval

end DurableWorkflow
