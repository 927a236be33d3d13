import DurableWorkflow.Proofs.Handler.Running
import DurableWorkflow.Proofs.Memo.Invocation

namespace DurableWorkflow

variable {ω α β : Type}

namespace Exchange

def performs (exchange : Exchange ω) : Bool :=
  !exchange.invocations.isEmpty

def performed (exchanges : List (Exchange ω)) : List (Request ω) :=
  (exchanges.filter performs).map request

variable {exchange : Exchange ω} {earlier later : List (Exchange ω)} {key : String}
  {accepts : Json → Bool} {thunk : ω → ActionResult × ω} {value : Json}

theorem performed_append : performed (earlier ++ later) = performed earlier ++ performed later := by
  simp [performed]

theorem performed_of_unkeyed (h : exchange.request.key? = none) : performed [exchange] = [] := by
  have idle : exchange.performs = false := by simp [performs, invocations_eq_nil h]
  simp [performed, idle]

theorem performed_of_known (h : exchange.request = .action key accepts thunk)
    (known : exchange.run.memo.get? key = some value) : performed [exchange] = [] := by
  have idle : exchange.performs = false := by simp [performs, invocations_of_action h, known]
  simp [performed, idle]

theorem performed_of_new (h : exchange.request = .action key accepts thunk)
    (new : exchange.run.memo.get? key = none) : performed [exchange] = [exchange.request] := by
  have performs : exchange.performs = true := by simp [performs, invocations_of_action h, new]
  simp [performed, performs]

end Exchange

namespace HandlerM

-- The code returns a value when it is run, and performs some actions on the way.
structure Yields (now : Timestamp) (code : HandlerM ω α) (run : Run) (world : ω) (value : α)
    (requests : List (Request ω)) (after : Run) (world' : ω) : Prop where
  returns  : Script.run now code.run run world = (.returned (.ok value), after, world')
  performs : Exchange.performed (Script.exchanges now code.run run world) = requests

namespace Yields

variable {now : Timestamp} {run after last : Run} {world world' world'' : ω} {first : HandlerM ω α}
  {next : α → HandlerM ω β} {value : α} {result : β} {earlier later : List (Request ω)}
  {key : String} {accepts : Json → Bool} {thunk : ω → ActionResult × ω} {json : Json}

theorem pure : Yields now (Pure.pure value) run world value [] run world :=
  ⟨rfl, rfl⟩

theorem bind (h₁ : first.Yields now run world value earlier after world')
    (h₂ : (next value).Yields now after world' result later last world'') :
    (first >>= next).Yields now run world result (earlier ++ later) last world'' where
  returns  := by
    rw [run_bind, h₁.returns]
    exact h₂.returns
  performs := by
    rw [exchanges_bind, h₁.returns, Exchange.performed_append, h₁.performs, h₂.performs]

theorem waitMillis {millis : Nat} {reply : Option ResumeEntry}
    (h : run.waitMillis now key millis = (.ok reply, after)) :
    (waitMillis key millis).Yields now run world reply [] after world where
  returns  := by rw [run_waitMillis, h]
  performs := Exchange.performed_of_unkeyed rfl

theorem waitEvent {filter : Json} {reply : ResumeEntry}
    (h : run.waitEvent key filter = (.ok reply, after)) :
    (waitEvent key filter).Yields now run world reply [] after world where
  returns  := by rw [run_waitEvent, h]
  performs := Exchange.performed_of_unkeyed rfl

theorem assign {state : Json} (h : run.state.assign? key json = some state) :
    (assign key json).Yields now run world () [] { run with state } world where
  returns  := run_assign h
  performs := by
    rw [exchanges_assign h, ← List.singleton_append, Exchange.performed_append,
      Exchange.performed_of_unkeyed rfl, Exchange.performed_of_unkeyed rfl]
    rfl

theorem recalled (known : run.memo.get? key = some json) (accepted : accepts json) :
    (action key accepts thunk).Yields now run world ⟨json, false⟩ [] run world where
  returns  := by
    rw [run_action]
    simp [Run.performAction, known, Run.recalled, accepted]
  performs := by
    rw [exchanges_action]
    exact Exchange.performed_of_known rfl known

theorem action (new : run.memo.get? key = none)
    (returned : thunk world = (.returned json, world')) :
    (action key accepts thunk).Yields now run world ⟨json, true⟩ [.action key accepts thunk]
      (run.recordSuccess now key json) world' where
  returns  := by
    rw [run_action]
    simp [Run.performAction, new, returned]
  performs := by
    rw [exchanges_action]
    exact Exchange.performed_of_new rfl new

end Yields

end HandlerM

end DurableWorkflow
