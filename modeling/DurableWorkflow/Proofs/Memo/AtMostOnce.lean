import DurableWorkflow.Proofs.Engine.Course
import DurableWorkflow.Proofs.Memo.Invocation

namespace DurableWorkflow

namespace Trail

variable {ω : Type} {first last : Run} {earlier later history : List (Exchange ω)}
  {exchange : Exchange ω} {key : String} {value : Json}

theorem get?_of_success (t : Trail first (earlier ++ exchange :: later) last)
    (h : first.memo.AllExecuted) (hs : value ∈ exchange.successes key) :
    last.memo.get? key = some value ∧ ∀ again ∈ later, again.run.memo.get? key = some value := by
  have ⟨second, t₁, t₂⟩ := t.split
  cases t₂
  case cons steered tail =>
    have he : exchange.run.memo.AllExecuted := steered.memo ▸ t₁.memo_grows.executed h
    have hv := Exchange.get?_after hs he
    exact ⟨tail.memo_grows.keeps key value hv, fun _ => tail.get?_of_mem hv⟩

theorem successes_length_le (t : Trail first history last) (h : first.memo.AllExecuted) :
    (history.flatMap (Exchange.successes key)).length ≤ 1 := by
  induction t
  case nil => exact Nat.zero_le 1
  case cons head rest steered tail ih =>
    have he : head.run.memo.AllExecuted := steered.memo ▸ h
    rw [List.flatMap_cons, List.length_append]
    cases hs : head.successes key
    case nil => simpa using ih (head.memo_grows.executed he)
    case cons value values =>
      -- The head succeeded, so that the others only recall its value.
      have hv : head.after.memo.get? key = some value := Exchange.get?_after (by simp [hs]) he
      have none_later : rest.flatMap (Exchange.successes key) = [] :=
        List.flatMap_eq_nil_iff.mpr fun _ hm => Exchange.successes_eq_nil (tail.get?_of_mem hv hm)
      rw [none_later, ← hs]
      exact head.successes_length_le key

end Trail

structure PerformedOnce {ω : Type} (key : String) (history : List (Exchange ω)) (now : Run) :
    Prop where
  once : (history.flatMap (Exchange.successes key)).length ≤ 1
  -- From that invocation on, the run knows the value. No thunk is invoked again for the action, and
  -- whoever uses it is handed the value.
  recalled : ∀ {earlier exchange later value}, history = earlier ++ exchange :: later →
    value ∈ exchange.successes key →
      now.memo.get? key = some value ∧
      ∀ again ∈ later, ∀ accepts thunk, again.request = .action key accepts thunk →
        again.invocations = [] ∧
        (again.run.performAction again.time key accepts thunk again.world).1 =
          .returned (Run.recalled accepts value)
  -- A thunk that fails leaves the memo as it was.
  unrecorded : ∀ exchange ∈ history, ∀ message, .failed message ∈ exchange.invocations →
    exchange.after.memo = exchange.run.memo

theorem Exchange.memo_of_failed {ω : Type} {exchange : Exchange ω} {message : String}
    (h : .failed message ∈ exchange.invocations) : exchange.after.memo = exchange.run.memo := by
  cases hk : exchange.request.key?
  case none => exact exchange.request.answer_memo hk
  case some key =>
    have ⟨accepts, thunk, hr⟩ := exists_action_of_key? hk
    rw [invocations_of_action hr] at h
    rw [after_of_action hr, Run.performAction]
    cases miss : exchange.run.memo.get? key <;> simp [miss] at h
    rcases ht : thunk exchange.world with ⟨_ | _ | _, world⟩ <;> simp [ht] at h
    rfl

theorem Trail.performedOnce {ω : Type} {first last : Run} {history : List (Exchange ω)}
    (t : Trail first history last) (h : first.memo.AllExecuted) (key : String) :
    PerformedOnce key history last where
  once := t.successes_length_le h
  recalled := by
    intro earlier exchange later value heq hs
    have ⟨hl, hlater⟩ := (heq ▸ t).get?_of_success h hs
    refine ⟨hl, fun again hm accepts thunk hr => ⟨?_, ?_⟩⟩
    · simp [Exchange.invocations_of_action hr, hlater again hm]
    · simp [Run.performAction, hlater again hm]
  unrecorded _ _ _ := Exchange.memo_of_failed

namespace Engine

variable {ω : Type} {engine : Engine ω} {runId : String} {initial : Run} {s : State ω}

-- Over the whole life of a run that was started without any results in its memo, whatever its
-- handlers are and in whatever order it is resumed, retried, swept or cancelled: no action is
-- performed twice.
theorem Life.actions_at_most_once (life : Life engine runId initial s)
    (fresh : initial.memo = .empty) :
    ∃ run, s.store.get? runId = some run ∧ ∀ key, PerformedOnce key life.exchanges run := by
  have ⟨run, stored, trail⟩ := life.trail
  have he : (engine.opened runId initial).memo.AllExecuted := by
    rw [opened, Run.keepAuditLog]
    split <;> exact fresh ▸ ActionMemo.empty_allExecuted
  exact ⟨run, stored, trail.performedOnce he⟩

namespace Charge

def payment : HandlerM Nat StepOutcome := do
  let output ← HandlerM.action "charge" (fun _ => true) fun attempts =>
    (if attempts = 0 then .failed "declined" else .returned (.nat attempts), attempts + 1)
  match ← HandlerM.waitEvent "receipt" .null with
  | .event _ _ (some _) =>
    HandlerM.putState output.value
    return .done
  | entry => return .suspend entry

def order : Workflow Nat where
  workflowType := "order"
  startStep    := "pay"
  initialState := .empty
  handlers     := Dict.ofPairs [("pay", payment)]

def shop : Engine Nat :=
  ⟨Dict.ofPairs [("order", order)], .standard⟩

def opening : State Nat :=
  ⟨.empty, 0, .epoch⟩

def calls : List Call :=
  [.resume "r" "pay:receipt" none, .retry "r", .resume "r" "pay:receipt" none,
    .resume "r" "pay:receipt" none]

def settled : State Nat :=
  calls.foldl (State.after shop) (opening.after shop (.run "r" order.instantiate))

def life : Life shop "r" order.instantiate settled :=
  .ofCalls opening calls rfl rfl

theorem charged_once :
    order.instantiate.memo = .empty ∧
      life.exchanges.flatMap (Exchange.successes "charge") = [.nat 1] ∧
      ∃ run, settled.store.get? "r" = some run ∧ ∀ key, PerformedOnce key life.exchanges run :=
  ⟨rfl, rfl, life.actions_at_most_once rfl⟩

end Charge

end Engine

end DurableWorkflow
