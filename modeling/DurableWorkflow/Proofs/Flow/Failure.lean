import DurableWorkflow.Proofs.Flow.Simulation
import DurableWorkflow.Proofs.Handler.Frame
import DurableWorkflow.Proofs.Memo.Invocation

namespace DurableWorkflow

def Except.error? {α : Type} : Except Error α → Option Error
  | .error error => some error
  | .ok _        => none

def Exchange.error? {ω : Type} (exchange : Exchange ω) : Option Error :=
  match exchange.request with
  | .action key accepts thunk =>
    match (exchange.run.performAction exchange.time key accepts thunk exchange.world).1 with
    | .returned reply => Except.error? reply
    | .panicked       => none
  | .waitMillis key millis =>
    Except.error? (exchange.run.waitMillis exchange.time key millis).1
  | .waitEvent key filter => Except.error? (exchange.run.waitEvent key filter).1
  | .resolve id payload => Except.error? (exchange.run.resolve exchange.time id payload).1
  | .setState state => Except.error? (exchange.run.setState state).1
  | .look | .putState _ | .pause _ => none

namespace Flow

variable {ω : Type} {flow : Flow} {tasks : Dict (StepTask ω)} {now : Timestamp} {run after : Run}
  {world world' : ω} {step : Step} {task : StepTask ω} {params schema : Option Json}
  {next : Option String}

inductive TaskFails (flow : Flow) (tasks : Dict (StepTask ω)) (exchange : Exchange ω) : Error → Prop
  | intro {step : Step} {params schema : Option Json} {task : StepTask ω} {message : String}
      (known   : step ∈ flow.steps)
      (kind    : step.kind = .task params schema)
      (given   : tasks.get? step.id = some task)
      (current : exchange.run.currentStep = step.id)
      (asked   : exchange.request =
        .action step.id (fun _ => true) (task exchange.run.state params))
      (failed  : exchange.invocations = [.failed message]) :
      TaskFails flow tasks exchange (.actionFailed step.id message)

-- What a visit of the current step comes to, with the exchanges that it makes. It fails only
-- because its task does, and breaks off only because its task or a condition panics: no request
-- that it makes is answered with another error.
structure Sound (flow : Flow) (tasks : Dict (StepTask ω)) (run : Run)
    (exchanges : List (Exchange ω)) (result : Outcome (Except Error StepOutcome)) : Prop where
  raised   : ∀ exchange ∈ exchanges, ∀ error, exchange.error? = some error →
    flow.TaskFails tasks exchange error
  failed   : ∀ error, result = .returned (.error error) → ∃ exchange ∈ exchanges,
    exchange.run.currentStep = run.currentStep ∧ flow.TaskFails tasks exchange error
  panicked : result = .panicked → (∃ exchange ∈ exchanges, .panicked ∈ exchange.invocations) ∨
    ∃ connection ∈ flow.outgoing run.currentStep, connection.holds run.state = .panicked

theorem error?_setState {state : Json} (live : run.status.isClosed = false) :
    (⟨now, .setState state, run, world⟩ : Exchange ω).error? = none := by
  simp [Exchange.error?, Run.setState, live, Except.error?]

theorem performAction_failed {key : String} {thunk : ω → ActionResult × ω} {error : Error}
    (h : run.performAction now key (fun _ => true) thunk world =
      (.returned (.error error), after, world')) :
    ∃ message, error = .actionFailed key message ∧
      (⟨now, .action key (fun _ => true) thunk, run, world⟩ : Exchange ω).invocations =
        [.failed message] := by
  rw [Exchange.invocations_of_action rfl]
  rw [Run.performAction] at h
  cases miss : run.memo.get? key <;> simp only [miss] at h
  case some => cases h
  case none =>
    rcases ht : thunk world with ⟨_ | message | _, _⟩ <;> simp only [ht] at h <;> cases h
    exact ⟨message, rfl, rfl⟩

theorem performAction_panicked {key : String} {accepts : Json → Bool}
    {thunk : ω → ActionResult × ω}
    (h : run.performAction now key accepts thunk world = (.panicked, after, world')) :
    (⟨now, .action key accepts thunk, run, world⟩ : Exchange ω).invocations = [.panicked] := by
  rw [Exchange.invocations_of_action rfl]
  rw [Run.performAction] at h
  cases miss : run.memo.get? key <;> simp only [miss] at h
  case some => cases h
  case none =>
    rcases ht : thunk world with ⟨_ | _ | _, _⟩ <;> simp only [ht] at h <;> cases h
    rfl

theorem sound_taskHandler (known : step ∈ flow.steps) (kind : step.kind = .task params schema)
    (given : tasks.get? step.id = some task) (current : run.currentStep = step.id)
    (live : run.status.isClosed = false) :
    flow.Sound tasks run
      (Script.exchanges now (taskHandler step.id task params next).run run world)
      (Script.run now (taskHandler step.id task params next).run run world).1 := by
  rw [exchanges_taskHandler, run_taskHandler]
  rcases performed :
    run.performAction now step.id (fun _ => true) (task run.state params) world with
    ⟨(error | output) | _, after, world'⟩
  case returned.error =>
    obtain ⟨message, rfl, failed⟩ := performAction_failed performed
    have fails := TaskFails.intro known kind given current rfl failed
    refine { raised := ?raised, failed := ?failed, panicked := by rintro ⟨⟩ }
    case raised =>
      refine List.forall_mem_cons.mpr ⟨nofun, List.forall_mem_singleton.mpr fun error h => ?_⟩
      simp only [Exchange.error?, performed] at h
      cases h
      exact fails
    case failed =>
      rintro _ ⟨⟩
      exact ⟨_, List.mem_cons_of_mem _ List.mem_cons_self, rfl, fails⟩
  case returned.ok =>
    have live : after.status.isClosed = false := by
      rw [← live, (Run.performAction_served performed).status]
    have accepted : (after.setState output.value).1 = .ok () := by simp [Run.setState, live]
    refine { raised := ?raised, failed := ?failed, panicked := ?broken }
    case raised =>
      refine List.forall_mem_cons.mpr ⟨nofun, List.forall_mem_cons.mpr ⟨fun error h => ?_, ?_⟩⟩
      · simp only [Exchange.error?, performed] at h
        cases h
      · dsimp only
        split
        case isTrue  => exact List.forall_mem_nil _
        case isFalse =>
          refine List.forall_mem_singleton.mpr fun error h => ?_
          rw [error?_setState live] at h
          cases h
    case failed =>
      intro error h
      dsimp only at h
      split at h
      case isTrue  => cases h
      case isFalse =>
        simp only [accepted] at h
        cases h
    case broken =>
      intro h
      dsimp only at h
      split at h <;> cases h
  case panicked =>
    refine { raised := ?raised, failed := by rintro _ ⟨⟩, panicked := ?broken }
    case raised =>
      refine List.forall_mem_cons.mpr ⟨nofun, List.forall_mem_singleton.mpr fun error h => ?_⟩
      simp only [Exchange.error?, performed] at h
      cases h
    case broken =>
      intro _
      refine .inl ⟨_, List.mem_cons_of_mem _ List.mem_cons_self, ?_⟩
      rw [performAction_panicked performed]
      exact List.mem_cons_self

theorem Sound.of_ok {exchanges : List (Exchange ω)} {outcome : StepOutcome}
    (quiet : ∀ exchange ∈ exchanges, exchange.error? = none) :
    flow.Sound tasks run exchanges (.returned (.ok outcome)) where
  raised exchange hm _ h := nomatch (quiet exchange hm).symm.trans h
  failed                 := nofun
  panicked               := nofun

theorem exists_of_firstHolding_panicked {state : Json} {connections : List Connection}
    (h : firstHolding state connections = .panicked) :
    ∃ connection ∈ connections, connection.holds state = .panicked := by
  induction connections
  case nil => cases h
  case cons connection rest ih =>
    rw [firstHolding] at h
    split at h
    case h_1 => cases h
    case h_2 =>
      obtain ⟨found, hm, hf⟩ := ih h
      exact ⟨found, List.mem_cons_of_mem _ hm, hf⟩
    case h_3 hf => exact ⟨connection, List.mem_cons_self, hf⟩

theorem sound_decisionHandler {found : List (Condition × String)} {fallback : Option String}
    (h : branches (flow.outgoing run.currentStep) = .returned (.ok found)) :
    flow.Sound tasks run
      (Script.exchanges now (decisionHandler found fallback).run run world)
      (Script.run now (decisionHandler found fallback).run run world).1 := by
  have quiet : ∀ exchange ∈ [(⟨now, .look, run, world⟩ : Exchange ω)], exchange.error? = none :=
    List.forall_mem_singleton.mpr rfl
  rw [exchanges_decisionHandler, run_decisionHandler, firstBranch_eq h]
  cases hf : firstHolding run.state (flow.outgoing run.currentStep)
  case returned => exact .of_ok quiet
  case panicked =>
    exact {
      raised exchange hm _ h := nomatch (quiet exchange hm).symm.trans h
      failed                 := nofun
      panicked _             := .inr (exists_of_firstHolding_panicked hf)
    }

variable {walk : Walk} {runId : String}

theorem sound_delayHandler {duration : String} {millis : Nat} (proper : walk.Proper flow)
    (hs : flow.step? walk.position = some step) (hk : step.kind = .resumeAfter duration) :
    flow.Sound tasks (walk.snapshot flow runId)
      (Script.exchanges now (delayHandler walk.position millis next).run
        (walk.snapshot flow runId) world)
      (Script.run now (delayHandler walk.position millis next).run
        (walk.snapshot flow runId) world).1 := by
  have ⟨reply, after, waited⟩ : ∃ reply after,
      (walk.snapshot flow runId).waitMillis now walk.position millis = (.ok reply, after) := by
    have ⟨deadline, fired, found⟩ := exists_timer proper hs hk (now.after millis)
    rw [waitMillis_snapshot, found]
    dsimp only
    split <;> exact ⟨_, _, rfl⟩
  have quiet : ∀ exchange ∈
      [(⟨now, .waitMillis walk.position millis, walk.snapshot flow runId, world⟩ : Exchange ω)],
      exchange.error? = none := by
    refine List.forall_mem_singleton.mpr ?_
    simp only [Exchange.error?, waited]
    rfl
  rw [exchanges_delayHandler, run_delayHandler, waited]
  cases reply <;> exact .of_ok quiet

theorem sound_eventHandler {input output : Option EventValue} (proper : walk.Proper flow)
    (hs : flow.step? walk.position = some step) (hk : step.kind = .waitForEvent input output) :
    let filter := (input.map (·.value)).getD .null
    flow.Sound tasks (walk.snapshot flow runId)
      (Script.exchanges now (eventHandler walk.position filter next).run
        (walk.snapshot flow runId) world)
      (Script.run now (eventHandler walk.position filter next).run
        (walk.snapshot flow runId) world).1 := by
  intro filter
  have ⟨_, delivered, found⟩ := exists_event proper hs hk filter
  have waited := waitEvent_snapshot flow runId walk filter
  rw [found] at waited
  have quiet :
      (⟨now, .waitEvent walk.position filter, walk.snapshot flow runId, world⟩ :
        Exchange ω).error? = none := by
    simp only [Exchange.error?, waited]
    rfl
  rw [exchanges_eventHandler, run_eventHandler, waited]
  cases delivered
  case none => exact .of_ok (List.forall_mem_singleton.mpr quiet)
  case some =>
    refine .of_ok (List.forall_mem_cons.mpr ⟨quiet, List.forall_mem_cons.mpr ⟨rfl, ?_⟩⟩)
    exact List.forall_mem_singleton.mpr rfl

theorem sound_of_handlerOf {handler : Handler ω} (proper : walk.Proper flow)
    (hs : flow.step? walk.position = some step)
    (h : flow.handlerOf tasks step = .returned (.ok handler))
    (live : walk.status.isClosed = false) :
    flow.Sound tasks (walk.snapshot flow runId)
      (Script.exchanges now handler.run (walk.snapshot flow runId) world)
      (Script.run now handler.run (walk.snapshot flow runId) world).1 := by
  have known : step ∈ flow.steps := List.mem_of_find?_eq_some hs
  have current : step.id = walk.position := by simpa using List.find?_some hs
  rw [handlerOf] at h
  cases hk : step.kind <;> simp only [hk] at h
  case begin  => cases h; exact .of_ok (List.forall_mem_nil _)
  case finish => cases h; exact .of_ok (List.forall_mem_nil _)
  case task params schema =>
    cases given : tasks.get? step.id <;> simp only [given] at h <;> cases h
    exact sound_taskHandler known hk given current.symm live
  case decision =>
    obtain ⟨found, hb, h⟩ := Outcome.bind_eq_returned_iff.mp h
    cases found <;> cases h
    exact sound_decisionHandler (show branches (flow.outgoing walk.position) = _ from current ▸ hb)
  case resumeAfter duration =>
    cases hd : Duration.parse duration <;> simp only [hd] at h <;> cases h
    exact current ▸ sound_delayHandler proper hs hk
  case waitForEvent input output =>
    cases h
    exact current ▸ sound_eventHandler proper hs hk

end Flow

end DurableWorkflow
