import DurableWorkflow.Proofs.Engine.Locks
import Mathlib.Logic.Function.Basic

namespace DurableWorkflow

structure LockRef where
  task  : TaskId
  runId : String
  cell  : Nat
  deriving DecidableEq

-- Locks as objects. Tasks refer to them, and so does a table by run id, which a lock enters when it
-- is first looked up and leaves when no task refers to it any more. A task goes by the object it
-- refers to, whatever the table says by then.
structure Vault where
  table : Dict Nat
  cells : Nat → Lock
  made : Nat
  refs : List LockRef

namespace Vault

def empty : Vault where
  table := .empty
  cells := fun _ => .free
  made  := 0
  refs  := []

def lock (vault : Vault) (runId : String) : Lock :=
  (vault.table.get? runId).elim .free vault.cells

def make (vault : Vault) (runId : String) : Vault :=
  { vault with
    table := vault.table.insert runId vault.made
    cells := Function.update vault.cells vault.made .free
    made  := vault.made + 1 }

def refer (vault : Vault) (ref : LockRef) : Vault :=
  { vault with refs := ref :: vault.refs }

def forget (vault : Vault) (task : TaskId) : Vault :=
  { vault with refs := vault.refs.filter (·.task ≠ task) }

def change (vault : Vault) (cell : Nat) (f : Lock → Lock) : Vault :=
  { vault with cells := Function.update vault.cells cell (f (vault.cells cell)) }

def inUse (vault : Vault) (cell : Nat) : Bool :=
  vault.refs.any (·.cell = cell)

def clear (vault : Vault) (runId : String) : Vault :=
  if (vault.table.get? runId).any (!vault.inUse ·) then
    { vault with table := vault.table.erase runId }
  else vault

def release (vault : Vault) (ref : LockRef) : Vault :=
  ((vault.change ref.cell Lock.pass).forget ref.task).clear ref.runId

-- The table is what it should be: everyone who is about a run refers to the lock that the table has
-- for it, and runs do not share their locks.
structure Sound (vault : Vault) : Prop where
  referred : ∀ {ref}, ref ∈ vault.refs → vault.table.get? ref.runId = some ref.cell
  distinct : ∀ {runId other cell}, vault.table.get? runId = some cell →
    vault.table.get? other = some cell → runId = other
  below    : ∀ {runId cell}, vault.table.get? runId = some cell → cell < vault.made

variable {vault : Vault} {runId other : String} {task : TaskId} {cell : Nat} {ref : LockRef}
  {f : Lock → Lock}

theorem mem_forget (hne : ref.task ≠ task) (hm : ref ∈ vault.refs) :
    ref ∈ (vault.forget task).refs :=
  List.mem_filter.mpr ⟨hm, decide_eq_true hne⟩

theorem mem_release {old : LockRef} (hne : ref.task ≠ old.task) (hm : ref ∈ vault.refs) :
    ref ∈ (vault.release old).refs := by
  have : ref ∈ ((vault.change old.cell Lock.pass).forget old.task).refs := mem_forget hne hm
  rw [release, clear]
  split <;> exact this

theorem lock_of_get? (h : vault.table.get? runId = some cell) :
    vault.lock runId = vault.cells cell := by
  rw [lock, h, Option.elim_some]

namespace Sound

theorem empty : Vault.empty.Sound :=
  ⟨nofun, by rintro _ _ _ ⟨⟩, by rintro _ _ ⟨⟩⟩

theorem refer (h : vault.Sound) (found : vault.table.get? ref.runId = some ref.cell) :
    (vault.refer ref).Sound :=
  { h with referred := fun hm => (List.mem_cons.mp hm).elim (· ▸ found) h.referred }

theorem forget (h : vault.Sound) : (vault.forget task).Sound :=
  { h with referred := fun hm => h.referred (List.mem_filter.mp hm).1 }

theorem change (h : vault.Sound) : (vault.change cell f).Sound :=
  { h with }

theorem make (h : vault.Sound) (absent : vault.table.get? runId = none) :
    (vault.make runId).Sound where
  referred {ref} hm := by
    have found := h.referred hm
    have : runId ≠ ref.runId := by
      rintro rfl
      rw [absent] at found
      cases found
    simpa [Vault.make, this] using found
  distinct h₁ h₂ := by
    simp only [Vault.make, Dict.get?_insert] at h₁ h₂
    split at h₁ <;> split at h₂
    case isTrue.isTrue hr hr'  => exact hr.symm.trans hr'
    case isTrue.isFalse        => cases h₁; exact (Nat.lt_irrefl _ (h.below h₂)).elim
    case isFalse.isTrue        => cases h₂; exact (Nat.lt_irrefl _ (h.below h₁)).elim
    case isFalse.isFalse       => exact h.distinct h₁ h₂
  below h₁ := by
    simp only [Vault.make, Dict.get?_insert] at h₁ ⊢
    split at h₁
    case isTrue  => cases h₁; exact Nat.lt_succ_self _
    case isFalse => exact Nat.lt_succ_of_lt (h.below h₁)

theorem clear (h : vault.Sound) : (vault.clear runId).Sound := by
  rw [Vault.clear]
  split
  case isFalse => exact h
  case isTrue unused =>
    have kept {other cell} (h₁ : (vault.table.erase runId).get? other = some cell) :
        vault.table.get? other = some cell := by
      rw [Dict.get?_erase] at h₁
      split at h₁
      case isTrue  => cases h₁
      case isFalse => exact h₁
    refine ⟨fun {ref} hm => ?_, fun h₁ h₂ => h.distinct (kept h₁) (kept h₂),
      fun h₁ => h.below (kept h₁)⟩
    have found := h.referred hm
    have : runId ≠ ref.runId := by
      rintro rfl
      simp only [found, Option.any_some, inUse, Bool.not_eq_true', List.any_eq_false] at unused
      exact unused ref hm (decide_eq_true rfl)
    simpa [this] using found

end Sound

theorem lock_make (h : vault.Sound) (absent : vault.table.get? runId = none) :
    (vault.make runId).lock other = vault.lock other := by
  by_cases hr : runId = other
  case pos =>
    subst hr
    simp [lock, make, absent]
  case neg =>
    cases found : vault.table.get? other
    case none      => simp [lock, make, hr, found]
    case some cell => simp [lock, make, hr, found, Nat.ne_of_lt (h.below found)]

theorem lock_change (h : vault.Sound) (found : vault.table.get? runId = some cell) :
    (vault.change cell f).lock other =
      if runId = other then f (vault.lock runId) else vault.lock other := by
  split
  case isTrue hr =>
    subst hr
    simp [lock, change, found]
  case isFalse hr =>
    cases found' : vault.table.get? other
    case none => simp [lock, change, found']
    case some =>
      have : _ ≠ cell := fun heq => hr (h.distinct found (heq ▸ found'))
      simp [lock, change, found', this]

theorem lock_clear
    (h : ∀ {cell}, vault.table.get? runId = some cell → vault.inUse cell = false →
      vault.cells cell = .free) :
    (vault.clear runId).lock other = vault.lock other := by
  rw [clear]
  split
  case isFalse => rfl
  case isTrue unused =>
    obtain ⟨cell, found, unused⟩ := (Option.any_eq_true _ _).mp unused
    by_cases hr : runId = other
    case pos =>
      subst hr
      simp [lock, found, h found (by simpa using unused)]
    case neg => simp [lock, hr]

-- The locks that the table and the tasks refer to are the locks by run id.
structure Keeps (vault : Vault) (locks : Locks) : Prop where
  sound : vault.Sound
  same  : ∀ runId, vault.lock runId = locks.lock runId

namespace Keeps

variable {locks locks' : Locks}

theorem empty : Vault.empty.Keeps .empty :=
  ⟨.empty, fun _ => rfl⟩

theorem cell_eq (h : vault.Keeps locks) (hm : ref ∈ vault.refs) :
    vault.cells ref.cell = locks.lock ref.runId := by
  rw [← h.same, lock_of_get? (h.sound.referred hm)]

theorem refer (h : vault.Keeps locks) (found : vault.table.get? ref.runId = some ref.cell) :
    (vault.refer ref).Keeps locks :=
  ⟨h.sound.refer found, h.same⟩

theorem forget (h : vault.Keeps locks) : (vault.forget task).Keeps locks :=
  ⟨h.sound.forget, h.same⟩

theorem make (h : vault.Keeps locks) (absent : vault.table.get? runId = none) :
    (vault.make runId).Keeps locks :=
  ⟨h.sound.make absent, fun other => (lock_make h.sound absent).trans (h.same other)⟩

theorem change (h : vault.Keeps locks) (hm : ref ∈ vault.refs)
    (changed : ∀ other, locks'.lock other =
      if ref.runId = other then f (locks.lock ref.runId) else locks.lock other) :
    (vault.change ref.cell f).Keeps locks' := by
  refine ⟨h.sound.change, fun other => ?_⟩
  rw [lock_change h.sound (h.sound.referred hm), h.same, h.same, changed]

theorem release (h : vault.Keeps locks) (hm : ref ∈ vault.refs)
    (others : ∀ other ∈ (locks.lock ref.runId).waiting, other ≠ ref.task ∧
      ∃ cell, ⟨other, ref.runId, cell⟩ ∈ vault.refs) :
    (vault.release ref).Keeps (locks.release ref.runId) := by
  have passed : ((vault.change ref.cell .pass).forget ref.task).Keeps (locks.release ref.runId) :=
    (h.change hm fun _ => Locks.lock_release).forget
  refine ⟨passed.sound.clear, fun other => ?_⟩
  refine (lock_clear fun {cell} found unused => ?_).trans (passed.same other)
  have : (locks.release ref.runId).lock ref.runId = (locks.lock ref.runId).pass := by
    rw [Locks.lock_release, if_pos rfl]
  rw [← lock_of_get? found, passed.same, this]
  refine Lock.eq_free_of_members (List.eq_nil_iff_forall_not_mem.mpr fun other hm' => ?_)
  rw [Lock.members_pass] at hm'
  have ⟨hne, cell', hr⟩ := others other hm'
  have : ⟨other, ref.runId, cell'⟩ ∈ ((vault.change ref.cell .pass).forget ref.task).refs :=
    mem_forget hne hr
  have heq := passed.sound.referred this
  rw [found] at heq
  cases heq
  simp only [inUse, List.any_eq_false] at unused
  exact unused _ this (decide_eq_true rfl)

end Keeps

end Vault

end DurableWorkflow
