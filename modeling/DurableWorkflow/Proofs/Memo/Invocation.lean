import DurableWorkflow.Proofs.Handler.Exchange
import DurableWorkflow.Proofs.Handler.Frame

namespace DurableWorkflow

namespace ActionMemo

-- Every entry is that of an executed action, as in a memo that only recording has written to.
def AllExecuted (memo : ActionMemo) : Prop :=
  ∀ key entry, memo.entries.get? key = some entry → entry.executed = true

structure Grows (before after : ActionMemo) : Prop where
  keeps    : ∀ key value, before.get? key = some value → after.get? key = some value
  executed : before.AllExecuted → after.AllExecuted

variable {memo first second third : ActionMemo} {key : String} {value : Json}

theorem empty_allExecuted : empty.AllExecuted := by
  intro key entry h
  cases h

theorem Grows.refl (memo : ActionMemo) : memo.Grows memo :=
  ⟨fun _ _ => id, id⟩

theorem Grows.trans (h₁ : first.Grows second) (h₂ : second.Grows third) : first.Grows third where
  keeps key value    := h₂.keeps key value ∘ h₁.keeps key value
  executed           := h₂.executed ∘ h₁.executed

theorem entries_eq_none (h : memo.AllExecuted) (hk : memo.get? key = none) :
    memo.entries.get? key = none := by
  cases he : memo.entries.get? key
  case none => rfl
  case some entry => simp [get?, he, Option.filter, h key entry he] at hk

theorem get?_record_self (h : memo.AllExecuted) (hk : memo.get? key = none) :
    (memo.record key value).get? key = some value := by
  rw [get?_record, if_pos ⟨rfl, entries_eq_none h hk⟩]

theorem grows_record (hk : memo.get? key = none) : memo.Grows (memo.record key value) where
  keeps := by
    intro other old h
    rw [get?_record]
    split
    case isTrue heq  => rw [← heq.1, hk] at h; cases h
    case isFalse     => exact h
  executed := by
    intro h other entry he
    rw [record, Dict.get?_insertIfNew] at he
    split at he
    case isTrue =>
      rw [entries_eq_none h hk] at he
      cases he
      rfl
    case isFalse => exact h other entry he

end ActionMemo

def logged {ω : Type} (thunk : ω → ActionResult × ω) :
    ω × List ActionResult → ActionResult × (ω × List ActionResult) :=
  fun (world, log) =>
    let (result, world) := thunk world
    (result, (world, log ++ [result]))

def ActionResult.value? : ActionResult → Option Json
  | .returned value => some value
  | .failed _ | .panicked => none

namespace Exchange

variable {ω : Type}

def invocations (exchange : Exchange ω) : List ActionResult :=
  match exchange.request with
  | .action key accepts thunk =>
    (exchange.run.performAction exchange.time key accepts (logged thunk) (exchange.world, [])).2.2.2
  | _ => []

def successes (key : String) (exchange : Exchange ω) : List Json :=
  if exchange.request.key? = some key then exchange.invocations.filterMap ActionResult.value?
  else []

end Exchange

namespace Run

variable {ω : Type} {now : Timestamp} {key : String} {accepts : Json → Bool}
  {thunk : ω → ActionResult × ω} {run : Run} {world : ω}

theorem performAction_logged {log : List ActionResult} :
    run.performAction now key accepts (logged thunk) (world, log) =
      let (reply, after, world') := run.performAction now key accepts thunk world
      (reply, after, world',
        if (run.memo.get? key).isSome then log else log ++ [(thunk world).1]) := by
  rw [performAction, performAction]
  cases run.memo.get? key
  case some => rfl
  case none =>
    rw [logged]
    rcases thunk world with ⟨_ | _ | _, after⟩ <;> rfl

end Run

namespace Exchange

variable {ω : Type} {exchange : Exchange ω} {key : String} {accepts : Json → Bool}
  {thunk : ω → ActionResult × ω} {value : Json}

theorem invocations_of_action (h : exchange.request = .action key accepts thunk) :
    exchange.invocations =
      if (exchange.run.memo.get? key).isSome then [] else [(thunk exchange.world).1] := by
  rw [invocations, h]
  simp only [Run.performAction_logged, List.nil_append]

theorem invocations_eq_nil (h : exchange.request.key? = none) : exchange.invocations = [] := by
  rw [invocations]
  cases hr : exchange.request
  case action =>
    rw [hr] at h
    cases h
  all_goals rfl

theorem after_of_action (h : exchange.request = .action key accepts thunk) :
    exchange.after =
      (exchange.run.performAction exchange.time key accepts thunk exchange.world).2.1 := by
  obtain ⟨time, request, run, world⟩ := exchange
  cases h
  rfl

theorem exists_action_of_key? (h : exchange.request.key? = some key) :
    ∃ accepts thunk, exchange.request = .action key accepts thunk := by
  cases hr : exchange.request <;> simp [hr, Request.key?] at h
  case action => exact ⟨_, _, by rw [h]⟩

-- A request writes to the memo only what a thunk returned for a key that had no result.
theorem after_memo (exchange : Exchange ω) :
    exchange.after.memo = exchange.run.memo ∨
      ∃ key value, exchange.run.memo.get? key = none ∧ value ∈ exchange.successes key ∧
        exchange.after.memo = exchange.run.memo.record key value := by
  cases hk : exchange.request.key?
  case none => exact .inl (exchange.request.answer_memo hk)
  case some key =>
    have ⟨accepts, thunk, hr⟩ := exists_action_of_key? hk
    rw [after_of_action hr, Run.performAction]
    split
    case h_1 => exact .inl rfl
    case h_2 miss =>
      rcases ht : thunk exchange.world with ⟨value | _ | _, world⟩
      case returned =>
        refine .inr ⟨key, value, miss, ?_, rfl⟩
        simp [successes, hk, invocations_of_action hr, miss, ht, ActionResult.value?]
      all_goals exact .inl rfl

theorem memo_grows (exchange : Exchange ω) : exchange.run.memo.Grows exchange.after.memo := by
  rcases exchange.after_memo with h | ⟨key, value, miss, -, h⟩ <;> rw [h]
  case inl => exact .refl _
  case inr => exact ActionMemo.grows_record miss

theorem get?_after (h : value ∈ exchange.successes key) (he : exchange.run.memo.AllExecuted) :
    exchange.after.memo.get? key = some value := by
  rw [successes] at h
  split at h
  case isFalse => cases h
  case isTrue hk =>
    have ⟨accepts, thunk, hr⟩ := exists_action_of_key? hk
    rw [invocations_of_action hr] at h
    cases miss : exchange.run.memo.get? key <;> simp [miss] at h
    rw [after_of_action hr, Run.performAction, miss]
    rcases ht : thunk exchange.world with ⟨_ | _ | _, world⟩ <;>
      simp [ht, ActionResult.value?] at h
    subst h
    exact ActionMemo.get?_record_self he miss

theorem invocations_of_success (h : value ∈ exchange.successes key) :
    exchange.invocations = [.returned value] := by
  rw [successes] at h
  split at h
  case isFalse => cases h
  case isTrue hk =>
    have ⟨accepts, thunk, hr⟩ := exists_action_of_key? hk
    rw [invocations_of_action hr] at h ⊢
    split at h
    case isTrue            => cases h
    case isFalse unrecorded =>
      rw [if_neg unrecorded]
      rcases ht : (thunk exchange.world).1 <;> simp [ht, ActionResult.value?] at h
      rw [h]

theorem successes_length_le (exchange : Exchange ω) (key : String) :
    (exchange.successes key).length ≤ 1 := by
  rw [successes]
  split
  case isFalse => exact Nat.zero_le 1
  case isTrue hk =>
    have ⟨accepts, thunk, hr⟩ := exists_action_of_key? hk
    rw [invocations_of_action hr]
    split
    case isTrue  => exact Nat.zero_le 1
    case isFalse => exact List.length_filterMap_le _ _

theorem successes_eq_nil (h : exchange.run.memo.get? key = some value) :
    exchange.successes key = [] := by
  rw [successes]
  split
  case isFalse => rfl
  case isTrue hk =>
    have ⟨accepts, thunk, hr⟩ := exists_action_of_key? hk
    simp [invocations_of_action hr, h]

end Exchange

namespace Trail

variable {ω : Type} {first last : Run} {history : List (Exchange ω)} {key : String} {value : Json}

theorem memo_grows (t : Trail first history last) : first.memo.Grows last.memo := by
  induction t
  case nil h => exact h.memo ▸ .refl _
  case cons exchange _ h tail ih => exact (h.memo ▸ exchange.memo_grows).trans ih

theorem get?_of_mem (t : Trail first history last) (h : first.memo.get? key = some value)
    {exchange : Exchange ω} (hm : exchange ∈ history) :
    exchange.run.memo.get? key = some value := by
  induction t
  case nil => cases hm
  case cons head _ hs tail ih =>
    have hh : head.run.memo.get? key = some value := hs.memo ▸ h
    rcases List.mem_cons.mp hm with rfl | hm
    · exact hh
    · exact ih (head.memo_grows.keeps key value hh) hm

end Trail

end DurableWorkflow
