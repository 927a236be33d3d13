import DurableWorkflow.Proofs.Concurrency.Traffic
import DurableWorkflow.Proofs.Engine.Locks

namespace DurableWorkflow.Traffic

variable {ω : Type} {engine : Engine ω} {s s' : Traffic ω} {task other : TaskId}
  {call call' : Call} {standing standing' old : Standing ω} {runId : String}

theorem at_put :
    (s.put task call standing).At other call' standing' ↔
      (other = task ∧ call' = call ∧ standing' = standing) ∨
        (other ≠ task ∧ s.At other call' standing') := by
  simp only [At, put, Function.update_apply]
  split <;> rename_i h <;> simp [h, eq_comm]

def Owned (s : Traffic ω) : Prop :=
  ∀ ⦃task call standing⦄, s.At task call standing → standing.isOpen →
    (s.locks.lock call.runId).owner = some task

namespace Owned

theorem unique (h : s.Owned) (h₁ : s.At task call standing) (open₁ : standing.isOpen)
    (h₂ : s.At other call' standing') (open₂ : standing'.isOpen) (hr : call.runId = call'.runId) :
    task = other := by
  have owner := h h₁ open₁
  rw [hr, h h₂ open₂] at owner
  exact (Option.some.inj owner).symm

theorem runId_ne (h : s.Owned) (h₁ : s.At task call standing) (open₁ : standing.isOpen)
    (h₂ : s.At other call' standing') (open₂ : standing'.isOpen) (hne : other ≠ task) :
    call.runId ≠ call'.runId :=
  fun hr => hne (h.unique h₁ open₁ h₂ open₂ hr).symm

theorem put {vault : Vault} {locks : Locks} {store : Store} {obtained : List TaskId} (h : s.Owned)
    (mine : standing.isOpen → (locks.lock call.runId).owner = some task)
    (others : ∀ {other call' standing'}, other ≠ task → s.At other call' standing' →
      standing'.isOpen → (s.locks.lock call'.runId).owner = some other →
        (locks.lock call'.runId).owner = some other) :
    Owned { s.put task call standing with vault, locks, store, obtained } := by
  intro other call' standing' holds isOpen
  obtain ⟨rfl, rfl, rfl⟩ | ⟨hne, holds⟩ := at_put.mp holds
  · exact mine isOpen
  · exact others hne holds isOpen (h holds isOpen)

end Owned

-- Who has an open unit of work owns the lock of its run, however often the lock left the table and
-- came back to it. So no two units of work are open on a run, and what one of them loaded is what
-- is stored until it commits.
theorem Step.owned (step : Step engine s s') (keeps : s.vault.Keeps s.locks) (h : s.Owned) :
    s'.Owned := by
  cases step with
  | refuse | find | make | leave => exact h.put (by rintro ⟨⟩) fun _ _ _ owner => owner
  | load opened      => exact h.put (fun _ => h opened rfl) fun _ _ _ owner => owner
  | drive _ _ loaded => exact h.put (fun _ => h loaded rfl) fun _ _ _ owner => owner
  | store driven _   => exact h.put (fun _ => h driven rfl) fun _ _ _ owner => owner
  | @ask task call =>
    refine h.put (by rintro ⟨⟩) fun {other call' _} _ _ _ owner => ?_
    rw [Locks.lock_ask]
    split
    case isTrue hr  => rw [Lock.owner_ask, hr, owner, Option.getD_some]
    case isFalse hr => exact owner
  | @abandon task call =>
    refine h.put (by rintro ⟨⟩) fun {other call' _} hne _ _ owner => ?_
    rw [Locks.lock_abandon]
    split
    case isTrue hr  => exact Lock.owner_quit (hr ▸ owner) hne
    case isFalse hr => exact owner
  | obtain _ refers granted =>
    rw [keeps.cell_eq refers] at granted
    exact h.put (fun _ => granted) fun _ _ _ owner => owner
  | close holds _ closes =>
    refine h.put (fun isOpen => ?_) fun hne holds' isOpen owner => ?_
    · have := closes.closed
      rw [Standing.isInside_of_isOpen isOpen] at this
      cases this
    · rw [Locks.lock_release, if_neg (h.runId_ne holds closes.isOpen holds' isOpen hne)]
      exact owner

-- Who is in a lock has a call on its run that is waiting or under way.
structure Housed (s : Traffic ω) : Prop where
  nodup  : ∀ runId, (s.locks.lock runId).members.Nodup
  inside : ∀ {runId task}, task ∈ (s.locks.lock runId).members →
    ∃ call standing, s.At task call standing ∧ call.runId = runId ∧ standing.isInside

namespace Housed

theorem put {vault : Vault} {locks : Locks} {store : Store} {obtained : List TaskId} (h : s.Housed)
    (nodup : ∀ runId, (locks.lock runId).members.Nodup)
    (mine : ∀ {runId}, task ∈ (locks.lock runId).members → call.runId = runId ∧ standing.isInside)
    (others : ∀ {runId other}, other ≠ task → other ∈ (locks.lock runId).members →
      other ∈ (s.locks.lock runId).members) :
    Housed { s.put task call standing with vault, locks, store, obtained } where
  nodup
  inside {runId other} hm := by
    by_cases hother : other = task
    case pos =>
      subst hother
      exact ⟨call, standing, at_put.mpr (.inl ⟨rfl, rfl, rfl⟩), mine hm⟩
    case neg =>
      have ⟨call', standing', holds, here⟩ := h.inside (others hother hm)
      exact ⟨call', standing', at_put.mpr (.inr ⟨hother, holds⟩), here⟩

theorem runId_eq (h : s.Housed) (holds : s.At task call standing)
    (hm : task ∈ (s.locks.lock runId).members) : call.runId = runId ∧ standing.isInside := by
  have ⟨_, _, holds', here⟩ := h.inside hm
  rw [At, holds] at holds'
  cases holds'
  exact here

theorem stay {vault : Vault} {store : Store} {obtained : List TaskId} (h : s.Housed)
    (holds : s.At task call old) (stays : old.isInside → standing.isInside) :
    Housed { s.put task call standing with vault, store, obtained } :=
  h.put h.nodup (fun hm => (h.runId_eq holds hm).imp_right stays) fun _ hm => hm

theorem begin {vault : Vault} {store : Store} {obtained : List TaskId} (h : s.Housed)
    (idle : s.tasks task = none) :
    Housed { s.put task call standing with vault, store, obtained } := by
  refine h.put h.nodup (fun hm => ?_) fun _ hm => hm
  have ⟨_, _, holds, _⟩ := h.inside hm
  rw [At, idle] at holds
  cases holds

theorem quit {vault : Vault} {locks : Locks} {store : Store} {obtained : List TaskId} (h : s.Housed)
    (holds : s.At task call old)
    (quitted : ∀ runId, locks.lock runId =
      if call.runId = runId then (s.locks.lock call.runId).quit task else s.locks.lock runId) :
    Housed { s.put task call standing with vault, locks, store, obtained } := by
  have mem {runId other} : other ∈ (locks.lock runId).members ↔
      (call.runId = runId → other ≠ task) ∧ other ∈ (s.locks.lock runId).members := by
    rw [quitted]
    split
    case isTrue hr  => simp [hr, Lock.mem_members_quit (h.nodup runId)]
    case isFalse hr => simp [hr]
  refine h.put (fun runId => ?_) (fun hm => ?_) fun _ hm => (mem.mp hm).2
  · rw [quitted]
    split
    case isTrue  => exact Lock.nodup_quit (h.nodup _)
    case isFalse => exact h.nodup runId
  · -- The only lock that the task can be in is the one that it leaves.
    have ⟨outside, inside⟩ := mem.mp hm
    exact absurd rfl (outside (h.runId_eq holds inside).1)

end Housed

theorem Step.housed (step : Step engine s s') (owned : s.Owned) (h : s.Housed) : s'.Housed := by
  cases step with
  | refuse idle | find idle | make idle => exact h.begin idle
  | leave reaching   => exact h.stay reaching (by rintro ⟨⟩)
  | obtain asking    => exact h.stay asking fun _ => rfl
  | load opened      => exact h.stay opened fun _ => rfl
  | drive _ _ loaded => exact h.stay loaded fun _ => rfl
  | store driven     => exact h.stay driven fun _ => rfl
  | abandon asking   => exact h.quit asking fun _ => Locks.lock_abandon
  | close holds _ closes =>
    refine h.quit holds fun _ => ?_
    rw [Locks.lock_release, Lock.quit_of_owner (owned holds closes.isOpen)]
  | @ask task call _ reaching =>
    have outside {runId} : task ∉ (s.locks.lock runId).members := by
      intro hm
      cases (h.runId_eq reaching hm).2
    have mem {runId other} : other ∈ ((s.locks.ask call.runId task).lock runId).members ↔
        (call.runId = runId ∧ other = task) ∨ other ∈ (s.locks.lock runId).members := by
      rw [Locks.lock_ask]
      split
      case isTrue hr  => rw [hr, Lock.mem_members_ask, eq_self, true_and]
      case isFalse hr => simp [hr]
    refine h.put (fun runId => ?_) (fun hm => ?_) fun hne hm => ?_
    · rw [Locks.lock_ask]
      split
      case isTrue  => exact Lock.nodup_ask (h.nodup _) outside
      case isFalse => exact h.nodup runId
    · exact ⟨((mem.mp hm).resolve_right outside).1, rfl⟩
    · exact (mem.mp hm).resolve_left fun hr => hne hr.2

def Referring (s : Traffic ω) : Prop :=
  ∀ ⦃task call standing⦄, s.At task call standing → standing.isInside →
    ∃ cell, ⟨task, call.runId, cell⟩ ∈ s.vault.refs

theorem Referring.put {vault : Vault} {locks : Locks} {store : Store} {obtained : List TaskId}
    (h : s.Referring) (mine : standing.isInside → ∃ cell, ⟨task, call.runId, cell⟩ ∈ vault.refs)
    (others : ∀ {ref : LockRef}, ref.task ≠ task → ref ∈ s.vault.refs → ref ∈ vault.refs) :
    Referring { s.put task call standing with vault, locks, store, obtained } := by
  intro other call' standing' holds inside
  obtain ⟨rfl, rfl, rfl⟩ | ⟨hne, holds⟩ := at_put.mp holds
  · exact mine inside
  · exact (h holds inside).imp fun _ hm => others hne hm

theorem Step.referring (step : Step engine s s') (h : s.Referring) : s'.Referring := by
  cases step with
  | refuse           => exact h.put (by rintro ⟨⟩) fun _ hm => hm
  | find | make      => exact h.put (by rintro ⟨⟩) fun _ hm => List.mem_cons_of_mem _ hm
  | ask _ refers     => exact h.put (fun _ => ⟨_, refers⟩) fun _ hm => hm
  | leave | abandon  => exact h.put (by rintro ⟨⟩) fun hne hm => Vault.mem_forget hne hm
  | obtain _ refers  => exact h.put (fun _ => ⟨_, refers⟩) fun _ hm => hm
  | load opened      => exact h.put (fun _ => h opened rfl) fun _ hm => hm
  | drive _ _ loaded => exact h.put (fun _ => h loaded rfl) fun _ hm => hm
  | store driven     => exact h.put (fun _ => h driven rfl) fun _ hm => hm
  | close _ _ closes =>
    refine h.put (fun inside => ?_) fun hne hm => Vault.mem_release hne hm
    rw [closes.closed] at inside
    cases inside

-- The lock objects are the locks by run id, whoever still refers to an object that was looked up
-- before.
theorem Step.keeps (step : Step engine s s') (owned : s.Owned) (housed : s.Housed)
    (referring : s.Referring) (h : s.vault.Keeps s.locks) : s'.vault.Keeps s'.locks := by
  cases step with
  | refuse | obtain | load | drive | store => exact h
  | find _ _ found  => exact h.refer found
  | make _ _ absent => exact (h.make absent).refer (by simp [Vault.make])
  | leave           => exact h.forget
  | ask _ refers    => exact h.change refers fun _ => Locks.lock_ask
  | abandon _ refers => exact (h.change refers fun _ => Locks.lock_abandon).forget
  | @close task call _ _ _ holds refers closes =>
    refine h.release refers fun other hm => ?_
    have owner := owned holds closes.isOpen
    have nodup := housed.nodup call.runId
    rw [Lock.members, owner] at nodup
    obtain ⟨call', standing, holds', hr, inside⟩ :=
      housed.inside (List.mem_append_right (s.locks.lock call.runId).owner.toList hm)
    have referring := referring holds' inside
    rw [hr] at referring
    refine ⟨?_, referring⟩
    rintro rfl
    exact (List.nodup_cons.mp nodup).1 hm

-- What a unit of work loaded is still stored.
def Current (s : Traffic ω) : Prop :=
  ∀ ⦃task call standing run⦄, s.At task call standing → standing.snapshot? = some run →
    run = s.store.get? call.runId

theorem Current.put {vault : Vault} {locks : Locks} {store : Store} {obtained : List TaskId}
    (h : s.Current)
    (mine : ∀ {run}, standing.snapshot? = some run → run = store.get? call.runId)
    (others : ∀ {other call' standing'}, other ≠ task → s.At other call' standing' →
      standing'.isOpen → s.store.get? call'.runId = store.get? call'.runId) :
    Current { s.put task call standing with vault, locks, store, obtained } := by
  intro other call' standing' run holds snapshot
  obtain ⟨rfl, rfl, rfl⟩ | ⟨hne, holds⟩ := at_put.mp holds
  · exact mine snapshot
  · rw [h holds snapshot]
    exact others hne holds (Standing.isOpen_of_snapshot? snapshot)

theorem Step.current (step : Step engine s s') (owned : s.Owned) (h : s.Current) : s'.Current := by
  cases step with
  | refuse | find | make | ask | leave | abandon | obtain =>
    exact h.put (by rintro _ ⟨⟩) fun _ _ _ => rfl
  | close _ _ closes =>
    refine h.put (fun snapshot => ?_) fun _ _ _ => rfl
    have := closes.closed
    rw [Standing.isInside_of_isOpen (Standing.isOpen_of_snapshot? snapshot)] at this
    cases this
  | load =>
    refine h.put (fun snapshot => ?_) fun _ _ _ => rfl
    cases snapshot
    rfl
  | drive now world loaded =>
    refine h.put (fun snapshot => ?_) fun _ _ _ => rfl
    cases snapshot
    exact h loaded rfl
  | store driven staged =>
    refine h.put (by rintro _ ⟨⟩) fun hne holds isOpen => ?_
    rw [Dict.get?_insert, if_neg (owned.runId_ne driven rfl holds isOpen hne)]

end DurableWorkflow.Traffic
