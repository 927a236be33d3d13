import DurableWorkflow.Proofs.Memo.Invocation
import DurableWorkflow.Proofs.Workflow.Event

namespace DurableWorkflow

-- What the memo and the state of a run owe to its present visit.
structure Recollects {ω : Type} (visit : List (Exchange ω)) (run : Run) : Prop where
  learnt : ∀ key value, run.memo.get? key = some value →
    (∃ exchange ∈ visit, value ∈ exchange.successes key) ∨
      ∀ exchange ∈ visit, exchange.run.memo.get? key = some value
  known  : ∀ opening ∈ visit.head?, ∀ key value, opening.run.memo.get? key = some value →
    run.memo.get? key = some value ∧ ∀ exchange ∈ visit, exchange.run.memo.get? key = some value
  still  : (∀ exchange ∈ visit, exchange.after.state = exchange.run.state) →
    ∀ exchange ∈ visit, exchange.run.state = run.state

namespace Recollects

variable {ω : Type} {visit : List (Exchange ω)} {run after : Run} {exchange : Exchange ω}

theorem start (run : Run) : Recollects ([] : List (Exchange ω)) run where
  learnt := by simp
  known  := by simp
  still  := by simp

theorem held (h : Recollects visit run) (between : run.Held after) : Recollects visit after where
  learnt := between.memo ▸ h.learnt
  known  := between.memo ▸ h.known
  still  := between.state ▸ h.still

theorem learnt_after (h : Recollects visit exchange.run) {key : String} {value : Json}
    (hv : exchange.after.memo.get? key = some value) :
    (∃ made ∈ visit ++ [exchange], value ∈ made.successes key) ∨
      ∀ made ∈ visit ++ [exchange], made.run.memo.get? key = some value := by
  have before (hv : exchange.run.memo.get? key = some value) :
      (∃ made ∈ visit ++ [exchange], value ∈ made.successes key) ∨
        ∀ made ∈ visit ++ [exchange], made.run.memo.get? key = some value :=
    (h.learnt key value hv).imp
      (fun ⟨made, hm, success⟩ => ⟨made, List.mem_append_left _ hm, success⟩)
      (fun all => List.forall_mem_append.mpr ⟨all, List.forall_mem_singleton.mpr hv⟩)
  rcases exchange.after_memo with same | ⟨other, result, _, success, recorded⟩
  · exact before (same ▸ hv)
  · rw [recorded, ActionMemo.get?_record] at hv
    split at hv
    case isFalse => exact before hv
    case isTrue new =>
      obtain ⟨rfl, _⟩ := new
      cases hv
      exact .inl ⟨exchange, by simp, success⟩

theorem known_after (h : Recollects visit exchange.run) {opening : Exchange ω}
    (ho : opening ∈ (visit ++ [exchange]).head?) {key : String} {value : Json}
    (hv : opening.run.memo.get? key = some value) :
    exchange.after.memo.get? key = some value ∧
      ∀ made ∈ visit ++ [exchange], made.run.memo.get? key = some value := by
  have grows (here : exchange.run.memo.get? key = some value) :
      exchange.after.memo.get? key = some value :=
    exchange.memo_grows.keeps key value here
  cases visit
  case nil =>
    cases ho
    exact ⟨grows hv, List.forall_mem_singleton.mpr hv⟩
  case cons =>
    have ⟨here, all⟩ := h.known opening ho key value hv
    exact ⟨grows here, List.forall_mem_append.mpr ⟨all, List.forall_mem_singleton.mpr here⟩⟩

theorem event_after {event : Event ω} (h : Recollects visit event.run) :
    Recollects (event.onto visit) event.after := by
  cases event with
  | leave => exact .start _
  | exchange made =>
    refine {
      learnt := fun _ _ => h.learnt_after
      known  := fun _ ho _ _ => h.known_after ho
      still  := fun keeps => ?_
    }
    have ⟨before, here⟩ := List.forall_mem_append.mp keeps
    have same : made.run.state = made.after.state :=
      (here made (List.mem_singleton_self _)).symm
    refine List.forall_mem_append.mpr ⟨?_, List.forall_mem_singleton.mpr same⟩
    exact fun exchange hm => (h.still before exchange hm).trans same

end Recollects

namespace Chronicle

variable {ω : Type} {first last : Run} {history before after : List (Event ω)} {event : Event ω}

theorem memo_grows (c : Chronicle first history last) : first.memo.Grows last.memo := by
  induction c
  case nil between => exact between.memo ▸ .refl _
  case cons event _ between _ ih =>
    have here : event.run.memo.Grows event.after.memo := by
      cases event with
      | exchange made  => exact made.memo_grows
      | leave run next => cases next <;> exact .refl _
    exact (between.memo ▸ here).trans ih

theorem memo_grows_event (c : Chronicle first (before ++ event :: after) last) :
    first.memo.Grows event.run.memo := by
  have ⟨_, c₁, c₂⟩ := c.split
  cases c₂ with
  | cons between => exact between.memo ▸ c₁.memo_grows

theorem recollects_event (c : Chronicle first (before ++ event :: after) last) :
    Recollects (Event.visit before) event.run :=
  along_event (P := Recollects) Recollects.held Recollects.event_after c (.start first)

end Chronicle

end DurableWorkflow
