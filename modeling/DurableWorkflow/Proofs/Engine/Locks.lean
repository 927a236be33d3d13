import DurableWorkflow.Engine.Locks

namespace DurableWorkflow

namespace Lock

variable {lock : Lock} {task other owner : TaskId}

def members (lock : Lock) : List TaskId :=
  lock.owner.toList ++ lock.waiting

def quit (task : TaskId) (lock : Lock) : Lock :=
  if lock.owner = some task then lock.pass else { lock with waiting := lock.waiting.erase task }

theorem owner_ask : (lock.ask task).owner = some (lock.owner.getD task) := by
  rw [ask]
  cases lock.owner <;> simp

theorem mem_members_ask : other ∈ (lock.ask task).members ↔ other = task ∨ other ∈ lock.members := by
  rw [ask, members, members]
  cases lock.owner <;> simp [or_left_comm, or_comm]

theorem nodup_ask (h : lock.members.Nodup) (outside : task ∉ lock.members) :
    (lock.ask task).members.Nodup := by
  rw [ask]
  cases ho : lock.owner <;> simp only [members, ho] at h outside ⊢
  case none   => exact List.nodup_cons.mpr ⟨outside, h⟩
  case some _ => grind

theorem members_pass : lock.pass.members = lock.waiting := by
  rw [pass]
  cases lock.waiting <;> rfl

theorem eq_free_of_members (h : lock.members = []) : lock = free := by
  obtain ⟨owner, waiting⟩ := lock
  obtain ⟨ho, rfl⟩ := List.append_eq_nil_iff.mp h
  cases owner
  case none   => rfl
  case some _ => cases ho

theorem quit_of_owner (h : lock.owner = some task) : lock.quit task = lock.pass :=
  if_pos h

theorem members_quit : (lock.quit task).members = lock.members.erase task := by
  rw [quit]
  split
  case isTrue ho  => rw [members_pass, members, ho, Option.toList_some, List.singleton_append,
    List.erase_cons_head]
  case isFalse ho =>
    cases howner : lock.owner <;> simp [members, howner] at ho ⊢
    rw [List.erase_cons_tail (by simpa using ho)]

theorem mem_members_quit (h : lock.members.Nodup) :
    other ∈ (lock.quit task).members ↔ other ≠ task ∧ other ∈ lock.members := by
  rw [members_quit, h.mem_erase_iff]

theorem nodup_quit (h : lock.members.Nodup) : (lock.quit task).members.Nodup := by
  rw [members_quit]
  exact h.erase task

theorem owner_quit (h : lock.owner = some owner) (hne : owner ≠ task) :
    (lock.quit task).owner = some owner := by
  have : lock.owner ≠ some task := by simpa [h] using hne
  rw [quit, if_neg this]
  exact h

end Lock

namespace Locks

variable {locks : Locks} {runId other : String} {task : TaskId}

theorem lock_insert {lock : Lock} :
    Locks.lock (locks.insert runId lock) other =
      if runId = other then lock else locks.lock other := by
  simp only [Locks.lock, Dict.get?_insert]
  split <;> rfl

theorem lock_ask :
    (locks.ask runId task).lock other =
      if runId = other then (locks.lock runId).ask task else locks.lock other :=
  lock_insert

theorem lock_abandon :
    (locks.abandon runId task).lock other =
      if runId = other then (locks.lock runId).quit task else locks.lock other := by
  rw [abandon, Lock.quit]
  split <;> exact lock_insert

-- A lock that nobody waits for leaves the table, which makes it free.
theorem lock_release :
    (locks.release runId).lock other =
      if runId = other then (locks.lock runId).pass else locks.lock other := by
  rw [release]
  rcases hw : (locks.lock runId).waiting with _ | ⟨next, rest⟩
  case nil =>
    simp only [Lock.pass, hw, Option.isNone_none, if_true]
    simp only [Locks.lock, Dict.get?_erase]
    split <;> rfl
  case cons =>
    simp only [Lock.pass, hw, Option.isNone_some, Bool.false_eq_true, if_false]
    exact lock_insert

end Locks

end DurableWorkflow
