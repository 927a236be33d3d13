import DurableWorkflow.Proofs.Flow.Delay
import DurableWorkflow.Proofs.Memo.Recollection

namespace DurableWorkflow

theorem ActionMemo.executed_of_record {memo : ActionMemo} {key : String} {value : Json}
    (h : (memo.record key value).AllExecuted) : memo.AllExecuted := by
  intro other entry there
  refine h other entry ?_
  rw [record, Dict.get?_insertIfNew]
  split
  case isTrue same => rw [same, there]; rfl
  case isFalse     => exact there

namespace Run

variable {ω : Type} {now : Timestamp} {key : String} {run after : Run} {world world' : ω}

theorem get?_performAction {accepts : Json → Bool} {thunk : ω → ActionResult × ω}
    {output : ActionOutput}
    (h : run.performAction now key accepts thunk world = (.returned (.ok output), after, world'))
    (executed : after.memo.AllExecuted) : after.memo.get? key = some output.value := by
  rw [performAction] at h
  cases missing : run.memo.get? key <;> rw [missing] at h
  case some stored =>
    simp only [recalled] at h
    split at h <;> cases h
    exact missing
  case none =>
    rcases ht : thunk world with ⟨value | _ | _, left⟩ <;> simp only [ht] at h <;> cases h
    exact ActionMemo.get?_record_self (ActionMemo.executed_of_record executed) missing

theorem mem_of_waitEvent {filter filter' payload : Json} {id : String}
    (h : run.waitEvent key filter = (.ok (.event id filter' (some payload)), after)) :
    .event (resumeId run.currentStep key) filter' (some payload) ∈ after.pending := by
  rw [waitEvent] at h
  rcases found : run.entry? (resumeId run.currentStep key) with _ | _ | ⟨other, _, _⟩ <;>
    simp only [found] at h <;> cases h
  have hid : (ResumeEntry.event id filter' (some payload)).id = resumeId run.currentStep key := by
    simpa using List.find?_some found
  exact hid ▸ List.mem_of_find?_eq_some found

end Run

namespace Flow

variable {ω : Type} {flow : Flow} {tasks : Dict (StepTask ω)} {workflow : Workflow ω}
  {now : Timestamp} {run after : Run} {world world' : ω} {event : Event ω} {made : Exchange ω}
  {step : Step} {handler : Handler ω}

inductive Handles (flow : Flow) (tasks : Dict (StepTask ω)) : Event ω → Prop
  | keeps {made : Exchange ω} (unkeyed : made.request.key? = none)
      (stateless : made.request.state? = none) : Handles flow tasks (.exchange made)
  | performs {made : Exchange ω} {step : Step} {params schema : Option Json} {task : StepTask ω}
      (hm : step ∈ flow.steps) (current : step.id = made.run.currentStep)
      (kind : step.kind = .task params schema) (given : tasks.get? step.id = some task)
      (asked : made.request = .action step.id (fun _ => true) (task made.run.state params)) :
      Handles flow tasks (.exchange made)
  | adopts {made : Exchange ω} {step : Step} {value : Json} (hm : step ∈ flow.steps)
      (current : step.id = made.run.currentStep) (task : step.kind.isTask)
      (adopts : made.request = .setState value) (proper : value.isNull = false)
      (known : made.run.memo.get? step.id = some value) : Handles flow tasks (.exchange made)
  | merges {made : Exchange ω} {step : Step} {input output : Option EventValue}
      {filter payload : Json} (hm : step ∈ flow.steps)
      (current : step.id = made.run.currentStep) (kind : step.kind = .waitForEvent input output)
      (merges : made.request = .putState (absorb payload made.run.state))
      (delivered : .event (resumeId step.id step.id) filter (some payload) ∈ made.run.pending) :
      Handles flow tasks (.exchange made)
  | leaves {run : Run} {next : Option String} {step : Step} (hm : step ∈ flow.steps)
      (current : step.id = run.currentStep)
      (settled : step.kind.isTask → ∃ result, run.memo.get? step.id = some result ∧
        (result.isNull = false → run.state = result)) : Handles flow tasks (.leave run next)

section Step

variable (hm : step ∈ flow.steps) (current : step.id = run.currentStep)

include hm current

theorem handles_taskHandler {task : StepTask ω} {params schema : Option Json}
    {next : Option String} (kind : step.kind = .task params schema)
    (given : tasks.get? step.id = some task) (executed : made.run.memo.AllExecuted)
    (hx : made ∈ Script.exchanges now (taskHandler step.id task params next).run run world) :
    flow.Handles tasks (.exchange made) := by
  rw [exchanges_taskHandler] at hx
  obtain rfl | rfl | hx := List.mem_cons.mp hx |>.imp_right List.mem_cons.mp
  · exact .keeps rfl rfl
  · exact .performs hm current kind given rfl
  · rcases performed : run.performAction now step.id (fun _ => true) (task run.state params) world
      with ⟨(_ | output) | _, after, world'⟩ <;> rw [performed] at hx
    case returned.error => cases hx
    case panicked       => cases hx
    case returned.ok =>
      cases proper : output.value.isNull <;>
        simp only [proper, Bool.false_eq_true, ↓reduceIte] at hx
      case true  => cases hx
      case false =>
        cases List.mem_singleton.mp hx
        have served : run.Served after := Run.performAction_served performed
        exact .adopts hm (current.trans served.currentStep.symm) (by rw [kind]; rfl) rfl proper
          (Run.get?_performAction performed executed)

theorem handles_eventHandler {input output : Option EventValue} {filter : Json}
    {next : Option String} (kind : step.kind = .waitForEvent input output)
    (hx : made ∈ Script.exchanges now (eventHandler step.id filter next : HandlerM ω _).run run
      world) :
    flow.Handles tasks (.exchange made) := by
  rw [exchanges_eventHandler] at hx
  obtain rfl | hx := List.mem_cons.mp hx
  · exact .keeps rfl rfl
  · rcases waited : run.waitEvent step.id filter with ⟨_ | _ | ⟨_, _, _ | payload⟩, after⟩ <;>
      rw [waited] at hx
    case error         => cases hx
    case ok.timer      => cases hx
    case ok.event.none => cases hx
    case ok.event.some =>
      have served : run.Served after := Run.waitEvent_served waited
      have there := Run.mem_of_waitEvent waited
      rw [← current] at there
      obtain rfl | rfl := List.mem_pair.mp hx
      · exact .keeps rfl rfl
      · exact .merges hm (current.trans served.currentStep.symm) kind (by rw [absorb_eq]) there

theorem handles_exchange (hh : flow.handlerOf tasks step = .returned (.ok handler))
    (executed : made.run.memo.AllExecuted)
    (hx : made ∈ Script.exchanges now handler.run run world) :
    flow.Handles tasks (.exchange made) := by
  rw [handlerOf] at hh
  cases hk : step.kind <;> simp only [hk] at hh
  case begin  => cases hh; cases hx
  case finish => cases hh; cases hx
  case task params schema =>
    cases given : tasks.get? step.id <;> simp only [given] at hh <;> cases hh
    exact handles_taskHandler hm current hk given executed hx
  case decision =>
    obtain ⟨found, _, hh⟩ := Outcome.bind_eq_returned_iff.mp hh
    cases found <;> cases hh
    rw [exchanges_decisionHandler] at hx
    cases List.mem_singleton.mp hx
    exact .keeps rfl rfl
  case resumeAfter duration =>
    cases hd : Duration.parse duration <;> rw [hd] at hh <;> cases hh
    rw [exchanges_delayHandler] at hx
    cases List.mem_singleton.mp hx
    exact .keeps rfl rfl
  case waitForEvent input output =>
    cases hh
    exact handles_eventHandler hm current hk hx

-- A step is left with the result of its task in the memo, which is the state unless it is `null`.
theorem handles_leave (live : run.status.isClosed = false)
    (hh : flow.handlerOf tasks step = .returned (.ok handler))
    (executed : after.memo.AllExecuted) {result : Outcome (Except Error StepOutcome)}
    (ran : Script.run now handler.run run world = (result, after, world'))
    (he : event ∈ Event.atEnd after result) : flow.Handles tasks event := by
  have served : run.Served (Script.run now handler.run run world).2.1 := Script.run_served _ _ _
  rw [ran] at served
  obtain ⟨next, rfl⟩ := Event.exists_leave he
  refine .leaves hm (current.trans served.currentStep.symm) fun isTask => ?_
  rw [handlerOf] at hh
  cases hk : step.kind <;> rw [hk] at isTask <;> try cases isTask
  simp only [hk] at hh
  cases ht : tasks.get? step.id <;> simp only [ht] at hh <;> cases hh
  rw [run_taskHandler] at ran
  rcases performed : run.performAction now step.id (fun _ => true) _ world
    with ⟨(_ | output) | _, last, _⟩ <;> rw [performed] at ran
  case returned.error => cases ran; cases he
  case panicked       => cases ran; cases he
  case returned.ok =>
    have known := Run.get?_performAction performed
    have open' : last.status.isClosed = false := (Run.performAction_served performed).status ▸ live
    refine ⟨output.value, ?_⟩
    cases proper : output.value.isNull <;>
      simp only [proper, Run.setState, open', Bool.false_eq_true, ↓reduceIte] at ran <;> cases ran
    · exact ⟨known executed, fun _ => rfl⟩
    · exact ⟨known executed, fun h => absurd h Bool.noConfusion⟩

end Step

theorem Compiles.handles_of_step (h : flow.Compiles tasks workflow) (hm : step ∈ flow.steps)
    (current : step.id = run.currentStep) (executed : event.run.memo.AllExecuted)
    (he : event ∈ workflow.stepEvents now run world) : flow.Handles tasks event := by
  have ⟨live, _⟩ := Workflow.served_of_mem_stepEvents he
  have ⟨handler, hh, known⟩ := h.handlers step hm
  rw [Workflow.stepEvents_of_handler live (current ▸ known)] at he
  rcases List.mem_append.mp he with he | he
  · obtain ⟨made, hx, rfl⟩ := List.mem_map.mp he
    exact handles_exchange hm current hh executed hx
  · rcases ran : Script.run now handler.run run world with ⟨result, after, world'⟩
    rw [ran] at he
    obtain ⟨next, rfl⟩ := Event.exists_leave he
    exact handles_leave hm current live hh executed ran he

end Flow

namespace Engine

variable {ω : Type} {engine : Engine ω} {flow : Flow} {tasks : Dict (StepTask ω)}
  {workflow : Workflow ω} {first : State ω} {runId : String} {call : Call} {loaded : Option Run}
  {now : Timestamp} {initial : Run} {pass : Pass ω} {happenings : List (Happening ω)}
  {event : Event ω}

def Memoizes (loaded : Option Run) : Prop :=
  ∀ run, loaded = some run → run.memo.AllExecuted

theorem opened_executed (made : (Call.run runId initial).Instantiates workflow) :
    (engine.opened runId initial).memo.AllExecuted := by
  obtain ⟨state, rfl⟩ := made
  rw [opened, Run.keepAuditLog]
  split <;> exact ActionMemo.empty_allExecuted

theorem keeps_memoizes (made : call.Instantiates workflow) : engine.Keeps Memoizes call := by
  intro now loaded world memoizes
  rcases work : engine.work now call loaded world with ⟨ending, _ | last, world'⟩
  case none => exact memoizes
  case some =>
    rintro _ ⟨⟩
    have ⟨begun, origin, trail⟩ := work_trail work
    refine trail.memo_grows.executed ?_
    cases call with
    | run =>
      cases origin
      exact opened_executed made
    | resume | retry | cancel => exact memoizes begun origin

theorem Memoizes.drives (made : call.Instantiates workflow) (memoizes : Memoizes loaded)
    (drives : engine.Drives now loaded call pass) : pass.run.memo.AllExecuted := by
  cases drives with | intro world granted => ?_
  cases granted with
  | run new known        => exact opened_executed made
  | retry stored         => exact memoizes _ stored
  | @resume _ id payload before after _ _ stored known resolved =>
    have same : (before.resolve now id payload).2.memo = before.memo := by rw [Run.resolve_frame]
    rw [resolved] at same
    exact same ▸ memoizes before stored

theorem handles_of_mem_history (compiled : Workflow.ofFlow flow tasks = .returned (.ok workflow))
    (new : first.store.get? runId = none)
    (made : ∀ happening ∈ happenings, ∀ engine call, happening.Makes engine call →
      call.runId = runId →
        engine.workflows.get? flow.id = some workflow ∧ call.Instantiates workflow)
    (he : event ∈ first.history runId happenings) : flow.Handles tasks event := by
  have h := Workflow.ofFlow_compiles compiled
  have steady := Workflow.ofFlow_unpaused compiled
  have kept : ∀ happening ∈ happenings, ∀ engine call, happening.Makes engine call →
      call.runId = runId →
        engine.Upholds (fun loaded => Stands flow runId loaded ∧ Memoizes loaded) call := by
    rintro happening hm engine call makes rfl
    obtain ⟨registered, made⟩ := made happening hm engine call makes rfl
    refine .of_unpaused (fun now loaded world holds => ⟨?_, ?_⟩) fun s holds _ _ granted => ?_
    · exact keeps_stands h registered made now loaded world holds.1
    · exact keeps_memoizes made now loaded world holds.2
    · obtain ⟨rfl, _⟩ := holds.1.drives h registered made (.intro s.world granted)
      exact steady
  have begun : Stands flow runId (first.store.get? runId) ∧ Memoizes (first.store.get? runId) := by
    rw [new]
    exact ⟨⟨none, rfl, by rintro _ ⟨⟩⟩, by rintro _ ⟨⟩⟩
  obtain ⟨happening, ha, engine, call, loaded, clock, makes, rfl, ⟨stands, memoizes⟩, happens⟩ :=
    mem_history kept begun he
  obtain ⟨registered, made⟩ := made happening ha engine call makes rfl
  have arises : engine.Arises clock.timestamp loaded call event := by
    refine happens.arises fun _ _ granted => ?_
    obtain ⟨rfl, _⟩ := stands.drives h registered made (.intro first.world granted)
    exact steady
  cases arises with
  | opening => exact .keeps rfl rfl
  | @pass pass _ drives within =>
    have executed := memoizes.drives made drives
    obtain ⟨rfl, _⟩ := stands.drives h registered made drives
    have executed : event.run.memo.AllExecuted := by
      have ⟨before, after, cut⟩ := List.append_of_mem within
      have chronicle : Chronicle pass.run pass.events pass.after :=
        pass.workflow.passChronicle _ _ _ _
      rw [cut] at chronicle
      exact chronicle.memo_grows_event.executed executed
    obtain ⟨run, world, within⟩ := Workflow.mem_passEvents within
    obtain ⟨handler, known⟩ := Workflow.exists_handler within
    obtain ⟨step, hm, current⟩ := Workflow.exists_step_of_ofFlow compiled known
    exact h.handles_of_step hm current executed within

end Engine

end DurableWorkflow
