import DurableWorkflow.Proofs.Engine.Act
import DurableWorkflow.Proofs.Flow.Failure
import DurableWorkflow.Proofs.Flow.Rest

namespace DurableWorkflow

namespace Flow

variable {ω : Type} {flow : Flow} {tasks : Dict (StepTask ω)} {now : Timestamp} {walk after : Walk}
  {world world' : ω} {runId : String} {workflow : Workflow ω} {budget : Budget}

-- What a pass comes to, with the exchanges that it makes and the run that it leaves.
structure SoundPass (flow : Flow) (tasks : Dict (StepTask ω)) (budget : Budget)
    (exchanges : List (Exchange ω)) (ending : PassEnd) (after : Run) : Prop where
  raised   : ∀ exchange ∈ exchanges, ∀ error, exchange.error? = some error →
    flow.TaskFails tasks exchange error
  failed   : ∀ error, ending = .failed error →
    (∃ exchange ∈ exchanges, exchange.run.currentStep = after.currentStep ∧
      flow.TaskFails tasks exchange error) ∨
    ∃ limit, budget = .limited limit ∧ error = .stepLimitExceeded limit after.currentStep
  panicked : ending = .panicked →
    (∃ exchange ∈ exchanges, .panicked ∈ exchange.invocations) ∨
    ∃ connection ∈ flow.outgoing after.currentStep, ∃ state, connection.holds state = .panicked

theorem SoundPass.prepend {earlier later : List (Exchange ω)} {ending : PassEnd} {last : Run}
    (raised : ∀ exchange ∈ earlier, ∀ error, exchange.error? = some error →
      flow.TaskFails tasks exchange error)
    (h : flow.SoundPass tasks budget later ending last) :
    flow.SoundPass tasks budget (earlier ++ later) ending last where
  raised := List.forall_mem_append.mpr ⟨raised, h.raised⟩
  failed error he := (h.failed error he).imp_left fun ⟨exchange, hm, fails⟩ =>
    ⟨exchange, List.mem_append_right _ hm, fails⟩
  panicked he := (h.panicked he).imp_left fun ⟨exchange, hm, panics⟩ =>
    ⟨exchange, List.mem_append_right _ hm, panics⟩

theorem soundPass_of_round {handler : Handler ω} {run last : Run} {ending : PassEnd}
    (sound : flow.Sound tasks run (Script.exchanges now handler.run run world)
      (Script.run now handler.run run world).1)
    (hr : Handler.round now handler run world = (some ending, last, world')) :
    flow.SoundPass tasks budget (Script.exchanges now handler.run run world) ending last := by
  have served : run.Served (Script.run now handler.run run world).2.1 := Script.run_served _ _ _
  rw [Handler.round] at hr
  generalize Script.run now handler.run run world = ran at sound served hr
  obtain ⟨(error | _ | entry | _) | _, left, world₁⟩ := ran <;> cases hr
  case returned.error =>
    refine { raised := sound.raised, failed := ?_, panicked := by rintro ⟨⟩ }
    rintro _ ⟨⟩
    obtain ⟨exchange, hm, current, fails⟩ := sound.failed error rfl
    exact .inl ⟨exchange, hm, current.trans served.currentStep.symm, fails⟩
  case panicked =>
    refine { raised := sound.raised, failed := by rintro _ ⟨⟩, panicked := fun _ => ?_ }
    rcases sound.panicked rfl with panics | ⟨connection, hm, panics⟩
    · exact .inl panics
    · exact .inr ⟨connection, served.currentStep.symm ▸ hm, _, panics⟩
  all_goals exact ⟨sound.raised, by rintro _ ⟨⟩, by rintro ⟨⟩⟩

theorem Compiles.rounds_sound (h : flow.Compiles tasks workflow) {left : Nat}
    (proper : walk.Proper flow) (live : walk.status.isClosed = false) :
    let (ending, after, _) := workflow.rounds now budget left (walk.snapshot flow runId) world
    flow.SoundPass tasks budget
      (workflow.roundsExchanges now left (walk.snapshot flow runId) world) ending after := by
  induction left generalizing walk world
  case zero =>
    refine { raised := List.forall_mem_nil _, failed := ?failed, panicked := ?panicked }
    case failed =>
      intro error he
      cases budget <;> cases he
      exact .inr ⟨_, rfl, rfl⟩
    case panicked =>
      intro he
      cases budget <;> cases he
  case succ left ih =>
    have ⟨step, hs, hm, hid⟩ := exists_step proper.on
    have ⟨handler, hh, known⟩ := h.handlers step hm
    have sound : flow.Sound tasks (walk.snapshot flow runId)
        (Script.exchanges now handler.run (walk.snapshot flow runId) world) _ :=
      sound_of_handlerOf proper hs hh live
    rw [Workflow.rounds_succ, Workflow.roundsExchanges_succ,
      Workflow.stepExchanges_of_handler live (hid ▸ known)]
    rcases hr : workflow.round now (walk.snapshot flow runId) world with ⟨_ | ending, last, world₁⟩
    case none =>
      have moved : workflow.round now (walk.snapshot flow runId) world =
          flow.shown runId (flow.round tasks now walk world) := h.round_eq proper.on live
      rw [hr] at moved
      rcases hw : flow.round tasks now walk world with ⟨_ | _, next, world₁⟩ <;>
        rw [hw] at moved <;> cases moved
      cases round_rounds h.wellFormed proper.on hw with
      | moved known status _ idle =>
        exact (ih (Walk.proper_of_idle known idle) (status ▸ live)).prepend sound.raised
    case some =>
      rw [Workflow.round_of_handler live (hid ▸ known)] at hr
      dsimp only
      rw [List.append_nil]
      exact soundPass_of_round sound hr

theorem Compiles.execute_sound (h : flow.Compiles tasks workflow) (proper : walk.Proper flow)
    (live : walk.status.isClosed = false) :
    let (ending, after, _) := workflow.execute now budget (walk.snapshot flow runId) world
    flow.SoundPass tasks budget
      (workflow.passExchanges now budget (walk.snapshot flow runId) world) ending after := by
  rw [Workflow.execute, Workflow.passExchanges, Walk.snapshot_status, live]
  exact h.rounds_sound proper.launch rfl

theorem undertake_proper (h : flow.WellFormed) {config : Config} {errand : Errand}
    {loaded : Option Walk} (proper : ∀ walk, loaded = some walk → walk.Proper flow)
    (hs : (flow.undertake tasks config runId now world errand loaded).2.1 = some after) :
    after.Proper flow := by
  obtain ⟨before, off, driven⟩ | ⟨walk, rfl, rfl⟩ := undertake_staged hs
  · cases off with
    | start begins => exact (drive_arrives h (embark_proper begins) rfl driven).1
    | @resume walk _ _ live =>
      exact (drive_arrives h ((proper walk rfl).resolve now _) live driven).1
    | retry failed =>
      exact (drive_arrives h (proper before rfl) (by rw [failed]; rfl) driven).1
  · exact (proper walk rfl).cancel

end Flow

def Call.Instantiates {ω : Type} (workflow : Workflow ω) : Call → Prop
  | .run _ initial                    => ∃ state, initial = { workflow.instantiate with state }
  | .resume .. | .retry _ | .cancel _ => True

theorem Call.Instantiates.exists_errand {ω : Type} {workflow : Workflow ω} {call : Call}
    (h : call.Instantiates workflow) :
    ∃ errand : Errand, call = errand.call workflow call.runId := by
  cases call
  case run =>
    obtain ⟨state, rfl⟩ := h
    exact ⟨.start state, rfl⟩
  case resume runId id payload => exact ⟨.resume id payload, rfl⟩
  case retry                   => exact ⟨.retry, rfl⟩
  case cancel                  => exact ⟨.cancel, rfl⟩

namespace Engine

variable {ω : Type} {engine : Engine ω} {flow : Flow} {tasks : Dict (StepTask ω)}
  {workflow : Workflow ω} {runId : String} {call : Call} {loaded : Option Run} {now : Timestamp}
  {pass : Pass ω}

-- The stored run, if there is one, stands for a proper walk.
def Stands (flow : Flow) (runId : String) (loaded : Option Run) : Prop :=
  ∃ walk : Option Walk, loaded = walk.map (Walk.snapshot flow runId) ∧
    ∀ found, walk = some found → found.Proper flow

theorem keeps_stands (h : flow.Compiles tasks workflow)
    (registered : engine.workflows.get? flow.id = some workflow)
    (made : call.Instantiates workflow) : engine.Keeps (Stands flow call.runId) call := by
  rintro now _ world ⟨walk, rfl, proper⟩
  have ⟨errand, made⟩ := made.exists_errand
  have work := h.work_eq registered call.runId now errand world fun found hf => (proper found hf).on
  rw [← made] at work
  rw [work]
  rcases hu : flow.undertake tasks engine.config call.runId now world errand walk with
    ⟨ending, _ | staged, world'⟩
  case none => exact ⟨walk, rfl, proper⟩
  case some =>
    refine ⟨some staged, rfl, ?_⟩
    rintro _ ⟨⟩
    exact Flow.undertake_proper h.wellFormed proper (congrArg (·.2.1) hu)

theorem Stands.drives (h : flow.Compiles tasks workflow)
    (registered : engine.workflows.get? flow.id = some workflow)
    (made : call.Instantiates workflow) (stands : Stands flow call.runId loaded)
    (drives : engine.Drives now loaded call pass) :
    pass.workflow = workflow ∧ ∃ walk : Walk, pass.run = walk.snapshot flow call.runId ∧
      walk.Proper flow ∧ walk.status.isClosed = false := by
  have only {other : Workflow ω} (known : engine.workflow flow.id = .ok other) :
      other = workflow := by
    rw [Engine.workflow, registered] at known
    cases known
    rfl
  obtain ⟨walk, rfl, proper⟩ := stands
  cases drives with | intro world granted => ?_
  cases granted with
  | run _ known =>
    obtain ⟨state, rfl⟩ := made
    obtain ⟨start, begins, _⟩ := h.startStep
    refine ⟨only (h.workflowType ▸ known), _, h.opened_eq begins, Flow.embark_proper begins, rfl⟩
  | @resume runId id payload _ _ _ _ stored known resolved live =>
    cases walk <;> cases stored
    case some.refl walk =>
      cases awaits : walk.awaits id
      case false =>
        cases resolved.symm.trans (Flow.resolve_snapshot_error flow runId now payload awaits)
      case true =>
        obtain ⟨_, found⟩ := Flow.resolve_snapshot flow runId now payload awaits
        cases resolved.symm.trans found
        exact ⟨only known, _, rfl, (proper walk rfl).resolve now payload, live⟩
  | retry stored failed known =>
    cases walk <;> cases stored
    case some.refl walk =>
      exact ⟨only known, walk, rfl, proper walk rfl, by rw [show walk.status = _ from failed]; rfl⟩

-- Valid flows do not go wrong, whatever is done to their runs and to the rest of the store.
theorem State.flow_sound {first : State ω} {acts : List (Act ω)}
    (compiled : Workflow.ofFlow flow tasks = .returned (.ok workflow))
    (new : first.store.get? runId = none)
    (made : ∀ act ∈ acts, ∀ engine call, act.Makes engine call → call.runId = runId →
      engine.workflows.get? flow.id = some workflow ∧ call.Instantiates workflow) :
    ∀ pass ∈ first.passesOf acts, pass.runId = runId →
      flow.SoundPass tasks pass.budget pass.exchanges pass.ending pass.after := by
  have h := Workflow.ofFlow_compiles compiled
  have kept : ∀ act ∈ acts, ∀ engine call, act.Makes engine call → call.runId = runId →
      engine.Keeps (Stands flow runId) call := by
    rintro act hm engine call makes rfl
    have ⟨registered, made⟩ := made act hm engine call makes rfl
    exact keeps_stands h registered made
  have begun : Stands flow runId (first.store.get? runId) := ⟨none, new, by rintro _ ⟨⟩⟩
  intro pass hm hr
  obtain ⟨act, hm, engine, call, now, loaded, makes, rfl, stands, drives⟩ :=
    mem_passesOf kept begun hm hr
  have ⟨registered, made⟩ := made act hm engine call makes rfl
  obtain ⟨_, _, _, budget, _, world⟩ := pass
  obtain ⟨rfl, walk, rfl, proper, live⟩ := stands.drives h registered made drives
  exact h.execute_sound proper live

end Engine

namespace Flow.Approval

open Engine

def day : List (Act Nat) :=
  .call office (.run "r" { workflow.instantiate with state := .null }) ::
    calls.map (.call office)

theorem approval_sound :
    Workflow.ofFlow flow tasks = .returned (.ok workflow) ∧ morning.store.get? "r" = none ∧
      (∃ pass ∈ morning.passesOf day, pass.runId = "r" ∧
        pass.ending = .failed (.actionFailed "count" "busy")) ∧
      ∀ pass ∈ morning.passesOf day, pass.runId = "r" →
        flow.SoundPass tasks pass.budget pass.exchanges pass.ending pass.after := by
  have failing : (morning.passesOf day).any (fun pass =>
      pass.runId = "r" && pass.ending = .failed (.actionFailed "count" "busy")) := by decide +kernel
  have ⟨pass, hm, failing⟩ := List.any_eq_true.mp failing
  refine ⟨compiled, rfl, ⟨pass, hm, by simpa using failing⟩, State.flow_sound compiled rfl ?_⟩
  intro act hm engine call makes _
  simp only [day, calls, List.map_cons, List.map_nil, List.mem_cons, List.not_mem_nil,
    or_false] at hm
  rcases hm with rfl | rfl | rfl | rfl <;> cases makes
  case inl => exact ⟨rfl, .null, rfl⟩
  all_goals exact ⟨rfl, trivial⟩

end Flow.Approval

end DurableWorkflow
