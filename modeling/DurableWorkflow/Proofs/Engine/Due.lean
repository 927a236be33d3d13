import DurableWorkflow.Proofs.Engine.Apart
import DurableWorkflow.Proofs.Engine.Records
import Mathlib.Data.List.Count
import Mathlib.Data.List.Flatten
import Mathlib.Data.List.Sort
import Mathlib.Order.Bounds.Basic

namespace DurableWorkflow

namespace ResumeEntry

variable {now later : Timestamp} {id : String} {entry : ResumeEntry} {deadline : Timestamp}

def fallsDue (now : Timestamp) (id : String) : ResumeEntry → Bool
  | .timer other deadline false => other = id && deadline ≤ now
  | .timer _ _ true | .event .. => false

theorem isDue_iff :
    entry.isDue now ↔ ∃ id deadline, entry = .timer id deadline false ∧ deadline ≤ now := by
  rcases entry with ⟨id, deadline, _ | _⟩ | _ <;> simp [isDue]

theorem fallsDue_eq : entry.fallsDue now id = (entry.isDue now && entry.id = id) := by
  rcases entry with ⟨_, _, _ | _⟩ | _
  case timer.false => exact Bool.and_comm _ _
  all_goals rfl

theorem isDue_mono (h : now ≤ later) (due : entry.isDue now) : entry.isDue later := by
  obtain ⟨id, deadline, rfl, passed⟩ := isDue_iff.mp due
  exact isDue_iff.mpr ⟨id, deadline, rfl, Int.le_trans passed h⟩

theorem waits_iff :
    entry.isResolved = false ∧ entry.deadline? = some deadline ↔
      ∃ id, entry = .timer id deadline false := by
  rcases entry with ⟨id, _, _⟩ | _ <;> simp [isResolved, deadline?, and_comm]

end ResumeEntry

namespace Run

variable {run : Run} {now later : Timestamp} {id : String} {deadline time : Timestamp}
  {times : List Timestamp}

local instance : LinearOrder Timestamp where
  le_refl _      := Int.le_refl _
  le_trans _ _ _ := Int.le_trans
  le_total _ _   := Int.le_total _ _
  le_antisymm first second h₁ h₂ := by
    obtain ⟨millis, _, _⟩ := first
    cases Int.le_antisymm h₁ h₂
    rfl
  toDecidableLE := inferInstance

def deadlines (run : Run) : Set Timestamp :=
  { deadline | run.status = .suspended ∧ ∃ id, .timer id deadline false ∈ run.pending }

theorem foldl_earliest_some :
    times.foldl earliest (some time) = some (times.foldl min time) := by
  induction times generalizing time
  case nil => rfl
  case cons other rest ih =>
    rw [List.foldl_cons, List.foldl_cons, ← ih, earliest, min_comm, min_def]
    split <;> rfl

theorem foldl_earliest_none : times.foldl earliest none = times.min? := by
  cases times
  case nil            => rfl
  case cons time rest => exact foldl_earliest_some

theorem mem_unresolved_deadlines :
    deadline ∈ run.unresolved.filterMap ResumeEntry.deadline? ↔
      ∃ id, .timer id deadline false ∈ run.pending := by
  simp only [unresolved, List.mem_filterMap, List.mem_filter, Bool.not_eq_true', and_assoc,
    ResumeEntry.waits_iff]
  constructor
  case mp =>
    rintro ⟨_, hm, id, rfl⟩
    exact ⟨id, hm⟩
  case mpr =>
    rintro ⟨id, hm⟩
    exact ⟨_, hm, id, rfl⟩

-- The index of a run is its least deadline.
theorem nextTimerDue_eq_some_iff :
    run.nextTimerDue = some deadline ↔ IsLeast run.deadlines deadline := by
  rw [nextTimerDue]
  split
  case isTrue suspended =>
    rw [foldl_earliest_none, List.min?_eq_some_iff]
    simp only [mem_unresolved_deadlines, IsLeast, mem_lowerBounds, deadlines, suspended, true_and,
      Set.mem_ofPred_eq]
  case isFalse other => simp [IsLeast, deadlines, other]

theorem nextTimerDue_eq_none_iff : run.nextTimerDue = none ↔ run.deadlines = ∅ := by
  rw [nextTimerDue, Set.eq_empty_iff_forall_notMem]
  split
  case isTrue suspended =>
    rw [foldl_earliest_none, List.min?_eq_none_iff, List.eq_nil_iff_forall_not_mem]
    simp only [mem_unresolved_deadlines, deadlines, suspended, true_and, Set.mem_ofPred_eq]
  case isFalse other => simp [deadlines, other]

theorem count_dueTimers :
    (run.dueTimers now).count id =
      if run.status = .suspended then run.pending.countP (ResumeEntry.fallsDue now id) else 0 := by
  rw [dueTimers]
  split
  case isFalse => rfl
  case isTrue =>
    rw [List.count_eq_countP, List.countP_map, List.countP_filter]
    refine List.countP_congr fun entry _ => ?_
    rw [ResumeEntry.fallsDue_eq]
    simp [and_comm]

theorem dueTimers_mono (h : now ≤ later) : (run.dueTimers now).Sublist (run.dueTimers later) := by
  rw [dueTimers, dueTimers]
  split
  case isFalse => exact .refl _
  case isTrue  =>
    exact (List.monotone_filter_right _ fun _ => ResumeEntry.isDue_mono h).map _

theorem mem_dueTimers :
    id ∈ run.dueTimers now ↔ run.status = .suspended ∧
      ∃ deadline, .timer id deadline false ∈ run.pending ∧ deadline ≤ now := by
  rw [dueTimers]
  split
  case isFalse other => simp [other]
  case isTrue suspended =>
    simp only [List.mem_map, List.mem_filter, ResumeEntry.isDue_iff, suspended, true_and]
    constructor
    case mp =>
      rintro ⟨_, ⟨hm, _, deadline, rfl, passed⟩, rfl⟩
      exact ⟨deadline, hm, passed⟩
    case mpr =>
      rintro ⟨deadline, hm, passed⟩
      exact ⟨_, ⟨hm, id, deadline, rfl, passed⟩, rfl⟩

theorem exists_nextTimerDue_iff :
    (∃ deadline, run.nextTimerDue = some deadline ∧ deadline ≤ now) ↔
      ∃ id, id ∈ run.dueTimers now := by
  simp only [mem_dueTimers]
  constructor
  case mp =>
    rintro ⟨deadline, index, passed⟩
    obtain ⟨suspended, id, hm⟩ := (nextTimerDue_eq_some_iff.mp index).1
    exact ⟨id, suspended, deadline, hm, passed⟩
  case mpr =>
    rintro ⟨id, suspended, deadline, hm, passed⟩
    have waits : deadline ∈ run.deadlines := ⟨suspended, id, hm⟩
    cases index : run.nextTimerDue
    case none =>
      rw [nextTimerDue_eq_none_iff.mp index] at waits
      cases waits
    case some least =>
      have ⟨_, below⟩ := nextTimerDue_eq_some_iff.mp index
      exact ⟨least, rfl, (below waits).trans passed⟩

end Run

namespace Store

variable {store : Store} {now later : Timestamp} {runs runs' : List (String × Run)}
  {timer : DueTimer}

def dueEntries (store : Store) (now : Timestamp) (timer : DueTimer) : Nat :=
  match store.get? timer.runId with
  | none     => 0
  | some run =>
    if run.status = .suspended then run.pending.countP (ResumeEntry.fallsDue now timer.resumeId)
    else 0

-- In whatever order the runs are gone through, the list is the same.
theorem sort_dueAmong (h : runs.Perm runs') :
    (dueAmong now runs).mergeSort DueTimer.le = (dueAmong now runs').mergeSort DueTimer.le := by
  have same : ((dueAmong now runs).mergeSort DueTimer.le).Perm
      ((dueAmong now runs').mergeSort DueTimer.le) :=
    (List.mergeSort_perm _ _).trans ((h.flatMap_right _).trans (List.mergeSort_perm _ _).symm)
  exact same.eq_of_pairwise (fun _ _ _ _ => DueTimer.le_antisymm) (DueTimer.sorted_mergeSort _)
    (DueTimer.sorted_mergeSort _)

theorem dueAmong_cons {runId : String} {run : Run} :
    dueAmong now ((runId, run) :: runs) =
      (run.dueTimers now).map (DueTimer.mk runId) ++ dueAmong now runs :=
  rfl

theorem count_dueAmong_singleton {run : Run} :
    (dueAmong now [(timer.runId, run)]).count timer = (run.dueTimers now).count timer.resumeId := by
  rw [dueAmong_cons, show dueAmong now [] = [] from rfl, List.append_nil]
  refine List.count_map_of_injective _ (DueTimer.mk timer.runId) (fun _ _ same => ?_) timer.resumeId
  exact congrArg DueTimer.resumeId same

theorem count_listDue : (store.listDue now).count timer = store.dueEntries now timer := by
  have alone : (store.listDue now).count timer =
      (dueAmong now (only timer.runId (store.get? timer.runId)).entries).count timer := by
    rw [listDue, (List.mergeSort_perm _ _).count_eq, entries_only, ← dueAmong_filter,
      List.count_filter (by simp)]
  rw [alone, dueEntries]
  cases store.get? timer.runId
  case none     => rfl
  case some run => exact count_dueAmong_singleton.trans Run.count_dueTimers

theorem listDue_mono (h : now ≤ later) : (store.listDue now).Sublist (store.listDue later) := by
  have antisymm : Std.Antisymm fun first second : DueTimer => first.le second :=
    ⟨fun _ _ => DueTimer.le_antisymm⟩
  have more : (dueAmong now store.entries).Sublist (dueAmong later store.entries) :=
    .flatMap_right _ fun _ _ => (Run.dueTimers_mono h).map _
  have subperm : (store.listDue now).Subperm (store.listDue later) :=
    (List.mergeSort_perm _ _).subperm.trans
      (more.subperm.trans (List.mergeSort_perm _ _).symm.subperm)
  exact List.sublist_of_subperm_of_pairwise subperm (listDue_sorted now store)
    (listDue_sorted later store)

theorem exists_mem_listDue_iff {runId : String} {run : Run} (stored : store.get? runId = some run) :
    (∃ timer ∈ store.listDue now, timer.runId = runId) ↔ ∃ id, id ∈ run.dueTimers now := by
  simp only [mem_listDue]
  constructor
  case mp =>
    rintro ⟨timer, ⟨_, found, due⟩, rfl⟩
    cases stored.symm.trans found
    exact ⟨timer.resumeId, due⟩
  case mpr =>
    rintro ⟨id, due⟩
    exact ⟨⟨runId, id⟩, ⟨run, stored, due⟩, rfl⟩

theorem dueAmong_indexed :
    dueAmong now (runs.filter fun entry => entry.2.nextTimerDue.any (· ≤ now)) =
      dueAmong now runs := by
  induction runs
  case nil => rfl
  case cons entry rest ih =>
    obtain ⟨runId, run⟩ := entry
    rw [List.filter_cons]
    split
    case isTrue => rw [dueAmong_cons, dueAmong_cons, ih]
    case isFalse late =>
      have none : run.dueTimers now = [] := by
        refine List.eq_nil_iff_forall_not_mem.mpr fun id due => late ?_
        obtain ⟨deadline, index, passed⟩ := Run.exists_nextTimerDue_iff.mpr ⟨id, due⟩
        simpa [index] using passed
      rw [ih, dueAmong_cons, none, List.map_nil, List.nil_append]

-- Which timers are listed as due.
structure ListsDue (store : Store) : Prop where
  counted : ∀ now timer, (store.listDue now).count timer = store.dueEntries now timer
  sorted : ∀ now, (store.listDue now).Pairwise fun first second =>
    first.runId < second.runId ∨ first.runId = second.runId ∧ first.resumeId ≤ second.resumeId
  anyOrder : ∀ now runs, runs.Perm store.entries →
    (dueAmong now runs).mergeSort DueTimer.le = store.listDue now
  indexed : ∀ now runId run, store.get? runId = some run →
    ((∃ timer ∈ store.listDue now, timer.runId = runId) ↔
      ∃ deadline, run.nextTimerDue = some deadline ∧ deadline ≤ now)
  least : ∀ runId run, store.get? runId = some run → ∀ deadline,
    run.nextTimerDue = some deadline ↔ IsLeast run.deadlines deadline
  pruned : ∀ now,
    (dueAmong now (store.entries.filter fun entry => entry.2.nextTimerDue.any (· ≤ now))).mergeSort
      DueTimer.le = store.listDue now
  grows : ∀ first later : Instant, first.nanos ≤ later.nanos →
    (store.listDue first.timestamp).Sublist (store.listDue later.timestamp)

theorem listDue_exact (store : Store) : store.ListsDue where
  counted _ _          := count_listDue
  sorted now           := (listDue_sorted now store).imp DueTimer.le_iff.mp
  anyOrder _ _ same    := sort_dueAmong same
  indexed _ _ _ stored := (exists_mem_listDue_iff stored).trans Run.exists_nextTimerDue_iff.symm
  least _ _ _ _        := Run.nextTimerDue_eq_some_iff
  pruned _             := by rw [dueAmong_indexed, listDue]
  grows _ _ forward    := listDue_mono (Instant.timestamp_mono forward)

end Store

end DurableWorkflow
