import DurableWorkflow.Proofs.Handler.Running
import DurableWorkflow.Proofs.Workflow.Event
import DurableWorkflow.Proofs.Workflow.Round

namespace DurableWorkflow

-- The same in two surroundings.
def Alike {α β ω : Type} (first second : α × β × ω) : Prop :=
  first.1 = second.1 ∧ first.2.1 = second.2.1

theorem alike_iff {α β ω : Type} {first second : α × β × ω} :
    Alike first second ↔
      ∃ result after world world', first = (result, after, world) ∧
        second = (result, after, world') := by
  constructor
  case mp =>
    rintro ⟨same, same'⟩
    exact ⟨_, _, first.2.2, second.2.2, rfl, Prod.ext same.symm (Prod.ext same'.symm rfl)⟩
  case mpr =>
    rintro ⟨result, after, world, world', rfl, rfl⟩
    exact ⟨rfl, rfl⟩

namespace HandlerM

variable {ω α β : Type} {now : Timestamp}

-- Code is secluded if it takes no notice of its surroundings: what it comes to, and what it makes
-- of its run, depends on nothing but the run and the clock. Sequencing keeps this, and an action
-- keeps it when its surroundings do not decide what it comes to.
def Secluded (now : Timestamp) (code : HandlerM ω α) : Prop :=
  ∀ run world world', Alike (Script.run now code.run run world) (Script.run now code.run run world')

theorem secluded_pure {value : α} : (pure value : HandlerM ω α).Secluded now :=
  fun _ _ _ => ⟨rfl, rfl⟩

theorem secluded_waitMillis {key : String} {millis : Nat} :
    (waitMillis key millis : HandlerM ω _).Secluded now :=
  fun _ _ _ => ⟨rfl, rfl⟩

-- An action may change its surroundings, but must not let them decide what it comes to.
theorem secluded_action {key : String} {accepts : Json → Bool} {thunk : ω → ActionResult × ω}
    (h : ∀ world world', (thunk world).1 = (thunk world').1) :
    (action key accepts thunk).Secluded now := by
  intro run world world'
  rw [run_action, run_action, Run.performAction, Run.performAction]
  cases run.memo.get? key
  case some => exact ⟨rfl, rfl⟩
  case none =>
    have performed : thunk world' = ((thunk world).1, (thunk world').2) :=
      Prod.ext (h world' world) rfl
    rw [performed]
    rcases thunk world with ⟨_ | _ | _, after⟩ <;> exact ⟨rfl, rfl⟩

theorem secluded_bind {first : HandlerM ω α} {next : α → HandlerM ω β} (h : first.Secluded now)
    (later : ∀ value, (next value).Secluded now) : (first >>= next).Secluded now := by
  intro run world world'
  have ⟨result, after, world₁, world₂, ran, ran'⟩ := alike_iff.mp (h run world world')
  rw [run_bind, run_bind, ran, ran']
  rcases result with (_ | value) | _
  case returned.ok => exact later value after world₁ world₂
  all_goals exact ⟨rfl, rfl⟩

end HandlerM

namespace Workflow

variable {ω : Type} {workflow : Workflow ω} {now : Timestamp} {budget : Budget} {left : Nat}
  {run : Run}

def Secluded (workflow : Workflow ω) (now : Timestamp) : Prop :=
  ∀ step handler, workflow.handler? step = some handler → HandlerM.Secluded now handler

theorem secluded_ofPairs {workflowType startStep : String} {initialState : Json}
    {steps : List (String × Handler ω)} (h : ∀ step ∈ steps, HandlerM.Secluded now step.2) :
    Secluded ⟨workflowType, startStep, initialState, .ofPairs steps⟩ now :=
  fun _ _ found => h _ (Dict.mem_of_get?_ofPairs found)

theorem Secluded.round (h : workflow.Secluded now) (run : Run) (world world' : ω) :
    Alike (workflow.round now run world) (workflow.round now run world') := by
  rw [Workflow.round, Workflow.round]
  cases entered : workflow.enter run
  case error => exact ⟨rfl, rfl⟩
  case ok handler =>
    have secluded := h run.currentStep handler (handler?_of_enter entered)
    obtain ⟨result, after, world₁, world₂, ran, ran'⟩ := alike_iff.mp (secluded run world world')
    dsimp only [Handler.round]
    rw [ran, ran']
    exact ⟨rfl, rfl⟩

theorem Secluded.rounds (h : workflow.Secluded now) (run : Run) (world world' : ω) :
    Alike (workflow.rounds now budget left run world)
      (workflow.rounds now budget left run world') := by
  induction left generalizing run world world'
  case zero => exact ⟨rfl, rfl⟩
  case succ left ih =>
    have ⟨ended, after, world₁, world₂, first, first'⟩ := alike_iff.mp (h.round run world world')
    rw [rounds_succ, rounds_succ, first, first']
    cases ended
    case none => exact ih after world₁ world₂
    case some => exact ⟨rfl, rfl⟩

theorem Secluded.execute (h : workflow.Secluded now) (budget : Budget) (run : Run)
    (world world' : ω) :
    Alike (workflow.execute now budget run world) (workflow.execute now budget run world') := by
  rw [Workflow.execute, Workflow.execute]
  split
  case isTrue  => exact ⟨rfl, rfl⟩
  case isFalse => exact h.rounds run.launch world world'

end Workflow

end DurableWorkflow
