import DurableWorkflow.Proofs.Engine.Sweep
import Mathlib.Data.List.Sort

namespace DurableWorkflow

namespace Store

variable {store store' : Store} {now : Timestamp} {timer : DueTimer} {rest : List DueTimer}

def SingleDue (now : Timestamp) (store : Store) : Prop :=
  ∀ runId run, store.get? runId = some run → (run.dueTimers now).length ≤ 1

theorem SingleDue.ascending (single : store.SingleDue now) :
    (store.listDue now).Pairwise (·.runId < ·.runId) := by
  have among : (dueAmong now store.entries).Pairwise (·.runId < ·.runId) := by
    refine List.pairwise_flatMap.mpr ⟨fun entry hm => ?_, store.ascending.imp fun lt => ?_⟩
    · have short := single entry.1 entry.2 (Dict.mem_entries_iff.mp hm)
      refine List.pairwise_map.mpr ?_
      match entry.2.dueTimers now, short with
      | [], _  => exact .nil
      | [_], _ => exact List.pairwise_singleton _ _
    · simp only [List.forall_mem_map]
      exact fun _ _ _ _ => lt
  rwa [listDue, List.mergeSort_of_pairwise]
  refine among.imp fun {first second} lt => ?_
  rw [DueTimer.le, if_neg (String.ne_of_lt lt)]
  exact decide_eq_true lt

theorem listDue_tail (single : store.SingleDue now) (single' : store'.SingleDue now)
    (listed : store.listDue now = timer :: rest)
    (others : ∀ runId, timer.runId ≠ runId → store'.get? runId = store.get? runId)
    (gone : ∀ run, store'.get? timer.runId = some run → run.dueTimers now = []) :
    store'.listDue now = rest := by
  have ascending := single.ascending
  rw [listed] at ascending
  obtain ⟨first, ascending⟩ := List.pairwise_cons.mp ascending
  have : Std.Irrefl fun first second : DueTimer => first.runId < second.runId :=
    ⟨fun _ => String.lt_irrefl _⟩
  have : Std.Antisymm fun first second : DueTimer => first.runId < second.runId :=
    ⟨fun _ _ lt gt => absurd gt (String.lt_asymm lt)⟩
  refine single'.ascending.eq_of_mem_iff ascending fun other => ?_
  constructor
  case mp =>
    intro hm
    have ⟨run, stored, due⟩ := mem_listDue.mp hm
    have hne : timer.runId ≠ other.runId := by
      intro heq
      rw [gone run (heq ▸ stored)] at due
      cases due
    have hm : other ∈ store.listDue now := mem_listDue.mpr ⟨run, others _ hne ▸ stored, due⟩
    rw [listed] at hm
    exact (List.mem_cons.mp hm).resolve_left fun heq => hne (heq ▸ rfl)
  case mpr =>
    intro hm
    have ⟨run, stored, due⟩ := mem_listDue.mp (listed ▸ List.mem_cons_of_mem timer hm)
    exact mem_listDue.mpr ⟨run, (others _ (String.ne_of_lt (first other hm))).trans stored, due⟩

end Store

-- How many passes a call has made, as sweeps count them.
def CallEnd.passes : CallEnd → Nat
  | .passed _                                       => 1
  | .settled | .refused _ | .panicked | .unfinished => 0

namespace Engine

variable {ω : Type} {engine : Engine ω} {now : Timestamp} {timer : DueTimer} {ending : CallEnd}
  {store store' : Store} {world world' : ω}

-- Sweeps that go on side by side, each with the list of timers that it made when it began: what
-- each of them has ahead still, and what they have made of the store. They take turns in whatever
-- order, and are kept apart only by the locks of the runs, so that their calls are made one after
-- another.
inductive Overlap (engine : Engine ω) (now : Timestamp) (store : Store) (world : ω) :
    List (List DueTimer) → Store → ω → Prop
  | start : Overlap engine now store world [] store world
  | begin {sweeps : List (List DueTimer)} {store' : Store} {world' : ω}
      (before : Overlap engine now store world sweeps store' world') :
      Overlap engine now store world (store'.listDue now :: sweeps) store' world'
  | resume {earlier later : List (List DueTimer)} {timer : DueTimer} {rest : List DueTimer}
      {store₁ store₂ : Store} {world₁ world₂ : ω} {ending : CallEnd}
      (before : Overlap engine now store world (earlier ++ (timer :: rest) :: later) store₁ world₁)
      (performed : engine.perform now (.resume timer.runId timer.resumeId none) store₁ world₁ =
        (ending, store₂, world₂))
      (returned : ending.returned) :
      Overlap engine now store world (earlier ++ rest :: later) store₂ world₂

theorem fire_cons
    (performed : engine.perform now (.resume timer.runId timer.resumeId none) store world =
      (ending, store', world'))
    (returned : ending.returned) (rest : List DueTimer) (count : Nat) :
    engine.fire now (timer :: rest) count store world =
      engine.fire now rest (count + ending.passes) store' world' := by
  rw [fire, performed]
  cases ending
  case panicked   => cases returned
  case unfinished => cases returned
  all_goals rfl

end Engine

end DurableWorkflow
