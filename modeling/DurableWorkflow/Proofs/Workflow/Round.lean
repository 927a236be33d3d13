import DurableWorkflow.Proofs.Workflow.Exchange

namespace DurableWorkflow

def Run.concludeVisit (run : Run) (step : String) (result : Outcome (Except Error StepOutcome)) :
    Option PassEnd × Run :=
  let (progress, run) := run.concludeStep step result
  run.concludeRound progress

namespace Run

variable {run : Run} {step : String}

theorem concludeVisit_advance {next : String} :
    run.concludeVisit step (.returned (.ok (.advance next))) =
      (none, { run.leaveStep step with currentStep := next }) :=
  rfl

theorem concludeVisit_done :
    run.concludeVisit step (.returned (.ok .done)) =
      (some .finished, { run.leaveStep step with status := .finished }) :=
  rfl

end Run

-- The round that a handler makes.
def Handler.round {ω : Type} (now : Timestamp) (handler : Handler ω) (run : Run) (world : ω) :
    Option PassEnd × Run × ω :=
  let (result, after, world) := Script.run now handler.run run world
  let (ending, after) := after.concludeVisit run.currentStep result
  (ending, after, world)

namespace Workflow

variable {ω : Type} {workflow : Workflow ω} {now : Timestamp} {run : Run} {world : ω}

def round (workflow : Workflow ω) (now : Timestamp) (run : Run) (world : ω) :
    Option PassEnd × Run × ω :=
  match workflow.enter run with
  | .error error => (some (.failed error), run.fail error, world)
  | .ok handler  => Handler.round now handler run world

theorem rounds_succ {budget : Budget} {left : Nat} :
    workflow.rounds now budget (left + 1) run world =
      match workflow.round now run world with
      | (none, run, world)        => workflow.rounds now budget left run world
      | (some ending, run, world) => (ending, run, world) := by
  rw [rounds, stepOnce, round]
  cases workflow.enter run
  case error => rfl
  case ok handler =>
    dsimp only [Handler.round, Run.concludeVisit]
    rcases Script.run now handler.run run world with ⟨result, after, world⟩
    dsimp only
    rcases after.concludeStep run.currentStep result with ⟨progress, after⟩
    dsimp only
    rcases after.concludeRound progress with ⟨_ | _, after⟩ <;> rfl

theorem roundsExchanges_succ {left : Nat} :
    workflow.roundsExchanges now (left + 1) run world =
      workflow.stepExchanges now run world ++
        match workflow.round now run world with
        | (none, run, world) => workflow.roundsExchanges now left run world
        | (some _, _, _)     => [] := by
  rw [roundsExchanges, stepOnce, round]
  cases workflow.enter run
  case error => rfl
  case ok handler =>
    dsimp only [Handler.round, Run.concludeVisit]
    rcases Script.run now handler.run run world with ⟨result, after, world⟩
    dsimp only
    rcases after.concludeStep run.currentStep result with ⟨progress, after⟩
    dsimp only
    rcases after.concludeRound progress with ⟨_ | _, after⟩ <;> rfl

theorem round_of_handler {handler : Handler ω} (live : run.status.isClosed = false)
    (h : workflow.handler? run.currentStep = some handler) :
    workflow.round now run world = Handler.round now handler run world := by
  rw [round, enter, live, h]
  rfl

theorem stepExchanges_of_handler {handler : Handler ω} (live : run.status.isClosed = false)
    (h : workflow.handler? run.currentStep = some handler) :
    workflow.stepExchanges now run world = Script.exchanges now handler.run run world := by
  rw [stepExchanges, enter, live, h]
  rfl

end Workflow

def PassEnd.status? : PassEnd → Option RunStatus
  | .finished               => some .finished
  | .suspended _            => some .suspended
  | .failed _               => some .failed
  | .panicked | .unfinished => none

theorem Run.concludeVisit_status {run after : Run} {step : String}
    {result : Outcome (Except Error StepOutcome)} {ending : PassEnd}
    (h : run.concludeVisit step result = (some ending, after)) :
    ∀ status ∈ ending.status?, after.status = status := by
  match result with
  | .returned (.ok (.advance _)) => cases h
  | .returned (.ok (.suspend _)) => cases h; rintro _ ⟨⟩; rfl
  | .returned (.ok .done)        => cases h; rintro _ ⟨⟩; rfl
  | .returned (.error _)         => cases h; rintro _ ⟨⟩; rfl
  | .panicked                    => cases h; rintro _ ⟨⟩

theorem Budget.exhausted_status {budget : Budget} {run : Run} :
    ∀ status ∈ (budget.exhausted run).1.status?, (budget.exhausted run).2.status = status := by
  cases budget <;> rintro _ ⟨⟩
  case limited => rfl

namespace Workflow

variable {ω : Type} {workflow : Workflow ω} {now : Timestamp} {budget : Budget} {left : Nat}
  {run after : Run} {world world' : ω} {ending : PassEnd}

theorem round_status (h : workflow.round now run world = (some ending, after, world')) :
    ∀ status ∈ ending.status?, after.status = status := by
  rw [round] at h
  split at h
  case h_1 =>
    cases h
    rintro _ ⟨⟩
    rfl
  case h_2 =>
    have ⟨ended, h⟩ := Prod.mk.inj h
    exact Run.concludeVisit_status (Prod.ext ended (Prod.mk.inj h).1)

theorem rounds_status (h : workflow.rounds now budget left run world = (ending, after, world')) :
    ∀ status ∈ ending.status?, after.status = status := by
  induction left generalizing run world
  case zero =>
    cases h
    exact Budget.exhausted_status
  case succ left ih =>
    rw [rounds_succ] at h
    rcases hr : workflow.round now run world with ⟨_ | ended, next, world₁⟩ <;> rw [hr] at h
    case none => exact ih h
    case some =>
      cases h
      exact round_status hr

theorem execute_status (live : run.status.isClosed = false)
    (h : workflow.execute now budget run world = (ending, after, world')) :
    ∀ status ∈ ending.status?, after.status = status := by
  rw [execute, live] at h
  exact rounds_status h

theorem execute_of_closed (closed : run.status.isClosed) :
    workflow.execute now budget run world = (.failed run.closedError, run, world) :=
  if_pos closed

end Workflow

end DurableWorkflow
