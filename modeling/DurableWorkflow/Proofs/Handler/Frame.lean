import DurableWorkflow.Handler.Script

namespace DurableWorkflow

namespace Run

variable {ω : Type} {now : Timestamp} {run : Run} {world : ω}

theorem pollTimer_frame {id : String} {deadline : Timestamp} {fired : Bool} :
    (run.pollTimer now id deadline fired).2 =
      { run with pending := (run.pollTimer now id deadline fired).2.pending } := by
  rw [pollTimer]
  split <;> rfl

theorem waitMillis_frame {key : String} {millis : Nat} :
    (run.waitMillis now key millis).2 =
      { run with pending := (run.waitMillis now key millis).2.pending } := by
  rw [waitMillis]
  split
  case h_1 => exact pollTimer_frame
  case h_2 => rfl
  case h_3 =>
    dsimp only
    rw [pollTimer_frame]
    rfl

theorem waitEvent_frame {key : String} {filter : Json} :
    (run.waitEvent key filter).2 =
      { run with pending := (run.waitEvent key filter).2.pending } := by
  rw [waitEvent]
  split <;> rfl

theorem resolve_frame {id : String} {payload : Option Json} :
    (run.resolve now id payload).2 =
      { run with pending := (run.resolve now id payload).2.pending } := by
  rw [resolve]
  split
  case h_3 => split <;> rfl
  all_goals rfl

theorem setState_frame {state : Json} :
    (run.setState state).2 = { run with state := (run.setState state).2.state } := by
  rw [setState]
  split <;> rfl

theorem performAction_frame {key : String} {accepts : Json → Bool}
    {thunk : ω → ActionResult × ω} :
    (run.performAction now key accepts thunk world).2.1 =
      { run with
        memo     := (run.performAction now key accepts thunk world).2.1.memo
        auditLog := (run.performAction now key accepts thunk world).2.1.auditLog } := by
  rw [performAction]
  split
  case h_1 => rfl
  case h_2 => rcases thunk world with ⟨_ | _, _⟩ <;> rfl

structure Served (before after : Run) : Prop where
  id           : after.id = before.id
  workflowType : after.workflowType = before.workflowType
  status       : after.status = before.status
  error        : after.error = before.error
  currentStep  : after.currentStep = before.currentStep

namespace Served

theorem refl (run : Run) : run.Served run :=
  ⟨rfl, rfl, rfl, rfl, rfl⟩

theorem trans {first second third : Run} (h₁ : first.Served second) (h₂ : second.Served third) :
    first.Served third where
  id           := h₂.id.trans h₁.id
  workflowType := h₂.workflowType.trans h₁.workflowType
  status       := h₂.status.trans h₁.status
  error        := h₂.error.trans h₁.error
  currentStep  := h₂.currentStep.trans h₁.currentStep

end Served

theorem resolve_served {after : Run} {id : String} {payload : Option Json} {reply : Except Error Bool}
    (h : run.resolve now id payload = (reply, after)) : run.Served after := by
  have left : (run.resolve now id payload).2 = after := by rw [h]
  rw [← left, resolve_frame]
  exact { Served.refl run with }

theorem waitEvent_served {after : Run} {key : String} {filter : Json}
    {reply : Except Error ResumeEntry} (h : run.waitEvent key filter = (reply, after)) :
    run.Served after := by
  have left : (run.waitEvent key filter).2 = after := by rw [h]
  rw [← left, waitEvent_frame]
  exact { Served.refl run with }

theorem performAction_served {after : Run} {key : String} {accepts : Json → Bool}
    {thunk : ω → ActionResult × ω} {world' : ω} {reply : Outcome (Except Error ActionOutput)}
    (h : run.performAction now key accepts thunk world = (reply, after, world')) :
    run.Served after := by
  have left : (run.performAction now key accepts thunk world).2.1 = after := by rw [h]
  rw [← left, performAction_frame]
  exact { Served.refl run with }

end Run

namespace Request

variable {ω : Type} {now : Timestamp} {run : Run} {world : ω}

def key? : Request ω → Option String
  | .action key _ _ => some key
  | .look | .waitMillis .. | .waitEvent .. | .resolve .. | .setState _ | .putState _ | .pause _ =>
    none

def state? : Request ω → Option Json
  | .setState state | .putState state => some state
  | .look | .action .. | .waitMillis .. | .waitEvent .. | .resolve .. | .pause _ => none

theorem answer_served (request : Request ω) :
    run.Served (request.answer now run world).2.1 := by
  cases request <;> dsimp only [answer]
  case action     => exact Run.performAction_served rfl
  case waitMillis => rw [Run.waitMillis_frame]; exact { Run.Served.refl run with }
  case waitEvent  => rw [Run.waitEvent_frame]; exact { Run.Served.refl run with }
  case resolve    => exact Run.resolve_served rfl
  case setState   => rw [Run.setState_frame]; exact { Run.Served.refl run with }
  all_goals exact { Run.Served.refl run with }

theorem answer_memo (request : Request ω) (h : request.key? = none) :
    (request.answer now run world).2.1.memo = run.memo := by
  cases request <;> dsimp only [answer]
  case action     => cases h
  case waitMillis => rw [Run.waitMillis_frame]
  case waitEvent  => rw [Run.waitEvent_frame]
  case resolve    => rw [Run.resolve_frame]
  case setState   => rw [Run.setState_frame]

theorem answer_auditLog (request : Request ω) (h : request.key? = none) :
    (request.answer now run world).2.1.auditLog = run.auditLog := by
  cases request <;> dsimp only [answer]
  case action     => cases h
  case waitMillis => rw [Run.waitMillis_frame]
  case waitEvent  => rw [Run.waitEvent_frame]
  case resolve    => rw [Run.resolve_frame]
  case setState   => rw [Run.setState_frame]

theorem answer_state (request : Request ω) (h : request.state? = none) :
    (request.answer now run world).2.1.state = run.state := by
  cases request <;> dsimp only [answer]
  case action     => rw [Run.performAction_frame]
  case waitMillis => rw [Run.waitMillis_frame]
  case waitEvent  => rw [Run.waitEvent_frame]
  case resolve    => rw [Run.resolve_frame]
  case setState   => cases h
  case putState   => cases h

end Request

-- No script moves its run or changes its status.
theorem Script.run_served {ω α : Type} {now : Timestamp} (script : Script ω α) (run : Run)
    (world : ω) : run.Served (script.run now run world).2.1 := by
  induction script generalizing run world
  case pure  => exact .refl run
  case panic => exact .refl run
  case call request next ih =>
    rw [Script.run]
    have served : run.Served (request.answer now run world).2.1 := request.answer_served
    generalize request.answer now run world = answered at served ⊢
    obtain ⟨_ | _, after, world⟩ := answered
    case returned reply => exact served.trans (ih reply after world)
    case panicked       => exact served

theorem Script.served_of_run {ω α : Type} {now : Timestamp} {script : Script ω α} {run after : Run}
    {world world' : ω} {result : Outcome α}
    (h : script.run now run world = (result, after, world')) : run.Served after := by
  have served : run.Served (script.run now run world).2.1 := script.run_served run world
  rwa [h] at served

end DurableWorkflow
