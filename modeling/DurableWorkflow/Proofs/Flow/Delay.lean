import DurableWorkflow.Proofs.Clock
import DurableWorkflow.Proofs.Engine.Punctuality
import DurableWorkflow.Proofs.Flow.Soundness
import DurableWorkflow.Proofs.Flow.Unpaused

namespace DurableWorkflow

namespace Flow

variable {ω : Type} {flow : Flow} {tasks : Dict (StepTask ω)} {workflow : Workflow ω}
  {now : Timestamp} {run : Run} {world : ω} {event : Event ω} {step : Step} {duration : String}
  {millis : Nat}

-- What happens to a run at a step that waits.
inductive Sits (stepId : String) (millis : Nat) : Event ω → Prop
  | polls {made : Exchange ω} (polls : made.request = .waitMillis stepId millis) :
      Sits stepId millis (.exchange made)
  | resolves {made : Exchange ω} {id : String} {payload : Option Json}
      (resolves : made.request = .resolve id payload) (waits : made.run.pending ≠ []) :
      Sits stepId millis (.exchange made)
  | leaves {run : Run} {next : Option String} {deadline : Timestamp}
      (fired : .timer (resumeId stepId stepId) deadline true ∈ run.pending) :
      Sits stepId millis (.leave run next)

theorem Compiles.handler_delay (h : flow.Compiles tasks workflow) (hm : step ∈ flow.steps)
    (hk : step.kind = .resumeAfter duration) (hd : Duration.parse duration = .ok millis) :
    workflow.handler? step.id = some (delayHandler step.id millis (flow.successor? step.id)) := by
  have ⟨handler, made, known⟩ := h.handlers step hm
  rw [handlerOf] at made
  simp only [hk, hd] at made
  cases made
  exact known

theorem Compiles.sits_of_step (h : flow.Compiles tasks workflow) (hm : step ∈ flow.steps)
    (hk : step.kind = .resumeAfter duration) (hd : Duration.parse duration = .ok millis)
    (at_step : run.currentStep = step.id) (he : event ∈ workflow.stepEvents now run world) :
    Sits step.id millis event := by
  have ⟨live, _⟩ := Workflow.served_of_mem_stepEvents he
  have known := at_step ▸ h.handler_delay hm hk hd
  rw [Workflow.stepEvents_of_handler live known, exchanges_delayHandler, run_delayHandler] at he
  rcases List.mem_append.mp he with he | he
  · cases List.mem_singleton.mp he
    exact .polls (by rw [at_step])
  · rcases polled : run.waitMillis now step.id millis with ⟨_ | _ | timer, after⟩ <;>
      rw [at_step, polled] at he
    case error   => cases he
    case ok.some => cases he
    case ok.none =>
      have ⟨deadline, fired⟩ := Run.exists_fired polled
      rw [at_step] at fired
      cases hn : flow.successor? step.id <;> rw [hn] at he <;> cases List.mem_singleton.mp he <;>
        exact .leaves fired

end Flow

namespace Engine

variable {ω : Type} {engine : Engine ω} {flow : Flow} {tasks : Dict (StepTask ω)}
  {workflow : Workflow ω} {first : State ω} {runId : String} {call : Call}
  {happenings : List (Happening ω)} {event : Event ω} {step : DurableWorkflow.Step}
  {duration : String} {millis : Nat}

theorem upholds_stands (h : flow.Compiles tasks workflow) (steady : workflow.Unpaused)
    (registered : engine.workflows.get? flow.id = some workflow)
    (made : call.Instantiates workflow) : engine.Upholds (Stands flow call.runId) call := by
  refine .of_unpaused (keeps_stands h registered made) fun s stands _ _ granted => ?_
  obtain ⟨rfl, _⟩ := stands.drives h registered made (.intro s.world granted)
  exact steady

theorem sits_of_mem_history (h : flow.Compiles tasks workflow) (steady : workflow.Unpaused)
    (new : first.store.get? runId = none)
    (made : ∀ happening ∈ happenings, ∀ engine call, happening.Makes engine call →
      call.runId = runId →
        engine.workflows.get? flow.id = some workflow ∧ call.Instantiates workflow)
    (hm : step ∈ flow.steps) (hk : step.kind = .resumeAfter duration)
    (hd : Duration.parse duration = .ok millis) (he : event ∈ first.history runId happenings)
    (at_step : event.run.currentStep = step.id) : Flow.Sits step.id millis event := by
  have kept : ∀ happening ∈ happenings, ∀ engine call, happening.Makes engine call →
      call.runId = runId → engine.Upholds (Stands flow runId) call := by
    rintro happening hm engine call makes rfl
    obtain ⟨registered, made⟩ := made happening hm engine call makes rfl
    exact upholds_stands h steady registered made
  have begun : Stands flow runId (first.store.get? runId) := ⟨none, new, by rintro _ ⟨⟩⟩
  obtain ⟨happening, ha, engine, call, loaded, clock, makes, rfl, stands, happens⟩ :=
    mem_history kept begun he
  obtain ⟨registered, made⟩ := made happening ha engine call makes rfl
  have arises : engine.Arises clock.timestamp loaded call event := by
    refine happens.arises fun _ _ granted => ?_
    obtain ⟨rfl, _⟩ := stands.drives h registered made (.intro first.world granted)
    exact steady
  cases arises with
  | @opening run _ id payload _ _ resolved =>
    refine .resolves rfl fun idle => ?_
    change run.pending = [] at idle
    rw [Run.resolve, idle] at resolved
    cases resolved
  | pass drives within =>
    obtain ⟨rfl, _⟩ := stands.drives h registered made drives
    obtain ⟨run, world, within⟩ := Workflow.mem_passEvents within
    obtain ⟨_, served⟩ := Workflow.served_of_mem_stepEvents within
    exact h.sits_of_step hm hk hd (served.currentStep ▸ at_step) within

end Engine

theorem Call.Instantiates.fresh {ω : Type} {workflow : Workflow ω} {call : Call}
    (h : call.Instantiates workflow) : call.Fresh := by
  cases call
  case run =>
    obtain ⟨state, rfl⟩ := h
    rfl
  all_goals trivial

def Flow.KeepsDelays {ω : Type} (flow : Flow) (history : List (Event ω)) : Prop :=
  ∀ before run next after, history = before ++ .leave run next :: after →
    ∀ step ∈ flow.steps, step.id = run.currentStep →
      ∀ duration millis, step.kind = .resumeAfter duration →
        Duration.parse duration = .ok millis →
          ∃ first since, Event.visit before = first :: since ∧
            first.request = .waitMillis step.id millis ∧
            ∃ shown ∈ first :: since, first.time.millis + millis ≤ shown.time.millis

namespace Engine

variable {ω : Type} {flow : Flow} {tasks : Dict (StepTask ω)} {workflow : Workflow ω}
  {first : State ω} {runId : String} {happenings : List (Happening ω)}

theorem keepsDelays (h : flow.Compiles tasks workflow) (steady : workflow.Unpaused)
    (new : first.store.get? runId = none)
    (made : ∀ happening ∈ happenings, ∀ engine call, happening.Makes engine call →
      call.runId = runId →
        engine.workflows.get? flow.id = some workflow ∧ call.Instantiates workflow) :
    flow.KeepsDelays (first.history runId happenings) := by
  have fresh : ∀ happening ∈ happenings, ∀ engine call, happening.Makes engine call →
      call.runId = runId → call.Fresh :=
    fun happening hm engine call makes addressed =>
      (made happening hm engine call makes addressed).2.fresh
  intro before run next after cut step hm at_step duration millis hk hd
  have sits (event : Event ω) (he : event ∈ first.history runId happenings)
      (here : event.run.currentStep = step.id) : Flow.Sits step.id millis event :=
    sits_of_mem_history h steady new made hm hk hd he here
  have leads : Leads none (first.history runId happenings) _ := new ▸ history_leads fresh
  have accounts : Accounts (Event.visit before) run := (cut ▸ leads).accounts_event
  have within (exchange : Exchange ω) (hv : exchange ∈ Event.visit before) :
      .exchange exchange ∈ first.history runId happenings := by
    rw [cut]
    exact List.mem_append_left _ (Event.mem_of_mem_visit hv)
  have stays (exchange : Exchange ω) (hv : exchange ∈ Event.visit before) :
      exchange.run.currentStep = step.id :=
    (accounts.position exchange hv).trans at_step.symm
  have polls (exchange : Exchange ω) (hv : exchange ∈ Event.visit before) :
      Flow.Sits step.id millis (.exchange exchange) :=
    sits _ (within exchange hv) (stays exchange hv)
  cases sits (.leave run next) (by simp [cut]) at_step.symm with
  | leaves fired =>
    obtain ⟨earlier, poll, since, visit, vigil⟩ :=
      (State.punctual new fresh).vigils before _ after cut _ _ _ fired
    rw [visit] at polls within stays accounts ⊢
    obtain ⟨key, millis', request, hid, rfl⟩ := vigil.started
    have polled : poll.request = .waitMillis step.id millis := by
      cases polls poll (by simp) with
      | polls polls       => exact polls
      | resolves resolves => cases request.symm.trans resolves
    cases request.symm.trans polled
    -- The visit begins without entries, so that nothing can be done in it before the timer is
    -- started.
    have opens : earlier = [] := by
      cases earlier
      case nil => rfl
      case cons opening rest =>
        have idle : opening.run.pending = [] := accounts.opens opening rfl
        cases polls opening (by simp) with
        | polls polls =>
          refine absurd ?_ (vigil.unasked opening (by simp))
          rw [opening.asked?_of_waitMillis polls, stays opening (by simp)]
        | resolves _ waits => exact absurd idle waits
    subst opens
    refine ⟨poll, since, rfl, polled, ?_⟩
    have ⟨shown, hs, due⟩ := vigil.due rfl
    have ⟨began, hb⟩ := exists_clock (within poll (by simp))
    have ⟨clock, hc⟩ := exists_clock (within shown (by simpa using hs))
    refine ⟨shown, hs, ?_⟩
    rw [hb, hc] at due ⊢
    exact Instant.after_le_iff.mp due

-- No timer fires early, whatever happens to a run from its start on, and whatever the clock shows.
-- So a run of a flow stays at a delay for the declared time on every visit.
theorem State.no_timer_early (new : first.store.get? runId = none)
    (fresh : ∀ happening ∈ happenings, ∀ engine call, happening.Makes engine call →
      call.runId = runId → call.Fresh) :
    first.Punctual runId happenings ∧
      ∀ (flow : Flow) (tasks : Dict (StepTask ω)) (workflow : Workflow ω),
        Workflow.ofFlow flow tasks = .returned (.ok workflow) →
        (∀ happening ∈ happenings, ∀ engine call, happening.Makes engine call →
          call.runId = runId →
            engine.workflows.get? flow.id = some workflow ∧ call.Instantiates workflow) →
        flow.KeepsDelays (first.history runId happenings) := by
  refine ⟨punctual new fresh, fun flow tasks workflow compiled made => ?_⟩
  exact keepsDelays (Workflow.ofFlow_compiles compiled) (Workflow.ofFlow_unpaused compiled) new made

end Engine

namespace Flow.Approval

open Engine

def minute (n : Nat) (h : n < 1000000 := by decide) : Instant :=
  ⟨60000000000 * n, by omega, by omega⟩

def wait : List (Happening Nat) :=
  [.act (.call office (.run "r" { workflow.instantiate with state := .null })),
    .act (.call office (.retry "r")), .act (.clock (minute 9)),
    .act (.call office (.resume "r" "pause:pause" none)), .act (.clock (minute 10)),
    .act (.sweep office), .act (.clock (minute 5)), .act (.sweep office),
    .flight office (.resume "r" "pause:pause" none) [], .act (.clock (minute 20)),
    .act (.sweep office)]

def leavings (history : List (Event Nat)) : Nat :=
  history.countP fun
    | .leave run _ => run.currentStep = "pause"
    | .exchange _  => false

theorem pause_kept :
    morning.store.get? "r" = none ∧ leavings (morning.history "r" wait) = 2 ∧
      morning.Punctual "r" wait ∧ flow.KeepsDelays (morning.history "r" wait) := by
  have made : ∀ happening ∈ wait, ∀ engine call, happening.Makes engine call →
      call.runId = "r" →
        engine.workflows.get? flow.id = some workflow ∧ call.Instantiates workflow := by
    intro happening hm engine call makes _
    simp only [wait, List.mem_cons, List.not_mem_nil, or_false] at hm
    rcases hm with rfl | rfl | rfl | rfl | rfl | rfl | rfl | rfl | rfl | rfl | rfl <;>
      rcases makes with ⟨⟨⟩⟩ | _
    case inl => exact ⟨rfl, .null, rfl⟩
    all_goals exact ⟨rfl, trivial⟩
  have fresh : ∀ happening ∈ wait, ∀ engine call, happening.Makes engine call →
      call.runId = "r" → call.Fresh :=
    fun happening hm engine call makes addressed =>
      (made happening hm engine call makes addressed).2.fresh
  have new : morning.store.get? "r" = none := rfl
  have ⟨punctual, keeps⟩ := State.no_timer_early new fresh
  exact ⟨new, by decide +kernel, punctual, keeps flow tasks workflow compiled made⟩

end Flow.Approval

end DurableWorkflow
