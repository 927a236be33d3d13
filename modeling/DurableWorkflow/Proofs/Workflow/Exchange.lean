import DurableWorkflow.Proofs.Handler.Exchange
import DurableWorkflow.Workflow.Pass

namespace DurableWorkflow

namespace Run.Steered

variable {run : Run}

theorem launch : run.Steered run.launch :=
  { Steered.refl run with }

theorem exhausted (budget : Budget) : run.Steered (budget.exhausted run).2 := by
  cases budget
  case limited   => exact fail _
  case unlimited => exact refl run

theorem concludeStep (step : String) (result : Outcome (Except Error StepOutcome)) :
    run.Steered (run.concludeStep step result).2 := by
  match result with
  | .returned (.ok outcome) => exact settle step outcome
  | .returned (.error _)    => exact refl run
  | .panicked               => exact refl run

theorem concludeRound (progress : Outcome (Except Error Progress)) :
    run.Steered (run.concludeRound progress).2 := by
  match progress with
  | .returned (.ok (.advanced _))  => exact refl run
  | .returned (.ok (.suspended _)) => exact refl run
  | .returned (.ok .finished)      => exact refl run
  | .returned (.error _)           => exact fail _
  | .panicked                      => exact refl run

end Run.Steered

namespace Workflow

variable {ω : Type} (workflow : Workflow ω) (now : Timestamp)

def stepExchanges (run : Run) (world : ω) : List (Exchange ω) :=
  match workflow.enter run with
  | .error _ => []
  | .ok handler => Script.exchanges now handler.run run world

def roundsExchanges : Nat → Run → ω → List (Exchange ω)
  | 0, _, _ => []
  | left + 1, run, world =>
    workflow.stepExchanges now run world ++
      let (progress, run, world) := workflow.stepOnce now run world
      match run.concludeRound progress with
      | (none, run) => roundsExchanges left run world
      | (some _, _) => []

def passExchanges (budget : Budget) (run : Run) (world : ω) : List (Exchange ω) :=
  if run.status.isClosed then [] else workflow.roundsExchanges now budget.rounds run.launch world

theorem stepTrail (run : Run) (world : ω) :
    Trail run (workflow.stepExchanges now run world) (workflow.stepOnce now run world).2.1 := by
  rw [stepExchanges, stepOnce]
  cases workflow.enter run
  case error => exact .refl run
  case ok handler => exact (Script.trail now handler.run run world).steer_end (.concludeStep _ _)

theorem roundsTrail (budget : Budget) (left : Nat) (run : Run) (world : ω) :
    Trail run (workflow.roundsExchanges now left run world)
      (workflow.rounds now budget left run world).2.1 := by
  induction left generalizing run world
  case zero => exact .nil (.exhausted budget)
  case succ left ih =>
    rw [roundsExchanges, rounds]
    have step := workflow.stepTrail now run world
    generalize workflow.stepOnce now run world = result at step ⊢
    obtain ⟨progress, after, world⟩ := result
    refine step.append ?_
    have steered : after.Steered (after.concludeRound progress).2 := .concludeRound progress
    dsimp only
    generalize after.concludeRound progress = conclusion at steered ⊢
    obtain ⟨_ | ending, last⟩ := conclusion
    case none => exact (ih last world).steer_start steered
    case some => exact .nil steered

theorem passTrail (budget : Budget) (run : Run) (world : ω) :
    Trail run (workflow.passExchanges now budget run world)
      (workflow.execute now budget run world).2.1 := by
  rw [passExchanges, execute]
  split
  case isTrue  => exact .refl run
  case isFalse => exact (workflow.roundsTrail now budget _ _ world).steer_start .launch

variable {workflow now} {exchange : Exchange ω}

theorem time_of_mem_step {run : Run} {world : ω}
    (h : exchange ∈ workflow.stepExchanges now run world) : exchange.time = now := by
  rw [stepExchanges] at h
  split at h
  case h_1 => cases h
  case h_2 => exact Script.time_of_mem h

theorem time_of_mem_rounds {left : Nat} {run : Run} {world : ω}
    (h : exchange ∈ workflow.roundsExchanges now left run world) : exchange.time = now := by
  induction left generalizing run world
  case zero => cases h
  case succ left ih =>
    rw [roundsExchanges] at h
    rcases List.mem_append.mp h with h | h
    · exact time_of_mem_step h
    · dsimp only at h
      split at h
      case h_1 => exact ih h
      case h_2 => cases h

theorem time_of_mem_pass {budget : Budget} {run : Run} {world : ω}
    (h : exchange ∈ workflow.passExchanges now budget run world) : exchange.time = now := by
  rw [passExchanges] at h
  split at h
  case isTrue  => cases h
  case isFalse => exact time_of_mem_rounds h

end Workflow

end DurableWorkflow
