import DurableWorkflow.Proofs.Concurrency.Serializability

namespace DurableWorkflow

namespace Standing

variable {ω : Type}

def isBusy : Standing ω → Bool
  | reaching | asking | opened | loaded _ | driven _ | stored _ => true
  | refused _ | abandoned | done _ | dropped                    => false

def hasParted : Standing ω → Bool
  | abandoned | done _ | dropped                                            => true
  | refused _ | reaching | asking | opened | loaded _ | driven _ | stored _ => false

def gaveUp : Standing ω → Bool
  | abandoned => true
  | _         => false

theorem not_hasParted_of_isOpen {standing : Standing ω} (h : standing.isOpen) :
    standing.hasParted = false := by
  cases standing <;> first | rfl | cases h

end Standing

namespace Vault

variable {vault : Vault} {runId other : String} {cell : Nat} {ref : LockRef}

theorem refs_clear : (vault.clear runId).refs = vault.refs := by
  rw [clear]
  split <;> rfl

theorem get?_clear_of_ne (h : runId ≠ other) :
    (vault.clear runId).table.get? other = vault.table.get? other := by
  rw [clear]
  split
  case isTrue  => simp [h]
  case isFalse => rfl

theorem inUse_iff (h : vault.Sound) (found : vault.table.get? runId = some cell) :
    vault.inUse cell ↔ ∃ ref ∈ vault.refs, ref.runId = runId := by
  rw [inUse, List.any_eq_true]
  refine exists_congr fun ref => and_congr_right fun hm => ?_
  rw [decide_eq_true_eq]
  have referred := h.referred hm
  constructor
  · rintro rfl
    exact h.distinct referred found
  · rintro rfl
    rw [found] at referred
    exact (Option.some.inj referred).symm

theorem isSome_get?_clear (h : vault.Sound) (found : vault.table.get? runId = some cell) :
    ((vault.clear runId).table.get? runId).isSome ↔ ∃ ref ∈ vault.refs, ref.runId = runId := by
  rw [← inUse_iff h found, clear, found, Option.any_some]
  cases vault.inUse cell <;> simp [found]

theorem refs_release : (vault.release ref).refs = vault.refs.filter (·.task ≠ ref.task) :=
  refs_clear

theorem get?_release_of_ne (h : ref.runId ≠ other) :
    (vault.release ref).table.get? other = vault.table.get? other :=
  get?_clear_of_ne h

theorem isSome_get?_release (h : vault.Sound) (hm : ref ∈ vault.refs) :
    ((vault.release ref).table.get? ref.runId).isSome ↔
      ∃ other ∈ (vault.release ref).refs, other.runId = ref.runId := by
  have sound : ((vault.change ref.cell Lock.pass).forget ref.task).Sound := h.change.forget
  rw [release, refs_clear]
  exact isSome_get?_clear sound (h.referred hm)

end Vault

namespace Traffic

variable {ω : Type} {engine : Engine ω} {first : Store} {s s' : Traffic ω} {task other : TaskId}
  {call : Call} {standing old : Standing ω} {runId : String} {order : List TaskId}
  {vault : Vault} {locks : Locks} {store : Store} {obtained : List TaskId}

def Busy (s : Traffic ω) (runId : String) : Prop :=
  ∃ task call standing, s.At task call standing ∧ call.runId = runId ∧ standing.isBusy

def hasParted (s : Traffic ω) (task : TaskId) : Bool :=
  (s.tasks task).any (·.standing.hasParted)

def gaveUp (s : Traffic ω) (task : TaskId) : Bool :=
  (s.tasks task).any (·.standing.gaveUp)

-- The tasks that parted from their locks, in the order in which they did.
inductive Departs (engine : Engine ω) (first : Store) : Traffic ω → List TaskId → Prop
  | start : Departs engine first (.start first) []
  | stay {s s' : Traffic ω} {order : List TaskId} (before : Departs engine first s order)
      (step : Step engine s s') (same : s'.hasParted = s.hasParted) : Departs engine first s' order
  | part {s s' : Traffic ω} {order : List TaskId} {task : TaskId}
      (before : Departs engine first s order) (step : Step engine s s')
      (about : s.hasParted task = false) (parted : s'.hasParted task) :
      Departs engine first s' (order ++ [task])

-- Whether the last task that parted from the lock of a run had given up its request.
def LeftBehind (s : Traffic ω) (order : List TaskId) (runId : String) : Prop :=
  ∃ task ∈ (order.filter (s.addresses runId)).getLast?, s.gaveUp task

structure Attended (s : Traffic ω) : Prop where
  busy : ∀ {ref}, ref ∈ s.vault.refs →
    ∃ call standing, s.At ref.task call standing ∧ call.runId = ref.runId ∧ standing.isBusy
  refers : ∀ {task call standing}, s.At task call standing → standing.isBusy →
    ∃ cell, ⟨task, call.runId, cell⟩ ∈ s.vault.refs

namespace Attended

theorem busy_iff (h : s.Attended) : s.Busy runId ↔ ∃ ref ∈ s.vault.refs, ref.runId = runId := by
  constructor
  · rintro ⟨task, call, standing, holds, rfl, busy⟩
    obtain ⟨cell, hm⟩ := h.refers holds busy
    exact ⟨_, hm, rfl⟩
  · rintro ⟨ref, hm, rfl⟩
    obtain ⟨call, standing, holds, hr, busy⟩ := h.busy hm
    exact ⟨ref.task, call, standing, holds, hr, busy⟩

theorem put (h : s.Attended)
    (mine : ∀ {ref}, ref ∈ vault.refs → ref.task = task → call.runId = ref.runId ∧ standing.isBusy)
    (refers : standing.isBusy → ∃ cell, ⟨task, call.runId, cell⟩ ∈ vault.refs)
    (others : ∀ {ref : LockRef}, ref.task ≠ task → (ref ∈ vault.refs ↔ ref ∈ s.vault.refs)) :
    Attended { s.put task call standing with vault, locks, store, obtained } where
  busy {ref} hm := by
    by_cases hother : ref.task = task
    case pos => exact ⟨call, standing, at_put.mpr (.inl ⟨hother, rfl, rfl⟩), mine hm hother⟩
    case neg =>
      obtain ⟨call', standing', holds, here⟩ := h.busy ((others hother).mp hm)
      exact ⟨call', standing', at_put.mpr (.inr ⟨hother, holds⟩), here⟩
  refers {other call' standing'} holds busy := by
    obtain ⟨rfl, rfl, rfl⟩ | ⟨hother, holds⟩ := at_put.mp holds
    · exact refers busy
    · exact (h.refers holds busy).imp fun _ hm => (others hother).mpr hm

theorem move (h : s.Attended) (same : vault.refs = s.vault.refs) (holds : s.At task call old)
    (before : old.isBusy) (after : standing.isBusy) :
    Attended { s.put task call standing with vault, locks, store, obtained } := by
  refine h.put (fun {ref} hm hr => ?_) (fun _ => same ▸ h.refers holds before)
    fun _ => by rw [same]
  obtain ⟨call', standing', holds', here, -⟩ := h.busy (same ▸ hm)
  rw [hr, At, holds] at holds'
  cases holds'
  exact ⟨here, after⟩

theorem not_refers (h : s.Attended) (idle : s.tasks task = none) {ref : LockRef}
    (hm : ref ∈ s.vault.refs) : ref.task ≠ task := by
  rintro rfl
  obtain ⟨call, standing, holds, -⟩ := h.busy hm
  rw [At, idle] at holds
  cases holds

theorem begin (h : s.Attended) {cell : Nat}
    (same : vault.refs = ⟨task, call.runId, cell⟩ :: s.vault.refs) (idle : s.tasks task = none)
    (after : standing.isBusy) :
    Attended { s.put task call standing with vault, locks, store, obtained } := by
  refine h.put (fun hm hr => ?_) (fun _ => ⟨cell, by simp [same]⟩) fun hne => ?_
  · rw [same] at hm
    obtain rfl | hm := List.mem_cons.mp hm
    · exact ⟨rfl, after⟩
    · exact absurd hr (h.not_refers idle hm)
  · rw [same, List.mem_cons, or_iff_right]
    rintro rfl
    exact hne rfl

theorem part (h : s.Attended) (same : vault.refs = s.vault.refs.filter (·.task ≠ task))
    (after : standing.isBusy = false) :
    Attended { s.put task call standing with vault, locks, store, obtained } := by
  refine h.put (fun hm hr => ?_) (fun busy => ?_) fun hne => ?_
  · rw [same, List.mem_filter] at hm
    exact absurd hr (of_decide_eq_true hm.2)
  · rw [after] at busy
    cases busy
  · simp [same, hne]

end Attended

theorem Closes.not_isBusy {last : Standing ω} (h : Closes engine call standing last) :
    last.isBusy = false := by
  cases h <;> rfl

theorem Step.attended (step : Step engine s s') (h : s.Attended) : s'.Attended := by
  cases step with
  | refuse idle =>
    exact h.put (fun hm hr => absurd hr (h.not_refers idle hm)) (by rintro ⟨⟩) fun _ => Iff.rfl
  | find idle | make idle => exact h.begin rfl idle rfl
  | ask reaching          => exact h.move rfl reaching rfl rfl
  | obtain asking         => exact h.move rfl asking rfl rfl
  | load opened           => exact h.move rfl opened rfl rfl
  | drive _ _ loaded      => exact h.move rfl loaded rfl rfl
  | store driven          => exact h.move rfl driven rfl rfl
  | leave | abandon       => exact h.part rfl rfl
  | close _ _ closes      => exact h.part Vault.refs_release closes.not_isBusy

def Settled (s s' : Traffic ω) (task : TaskId) (call : Call) : Standing ω → Prop
  | .refused _         => s.tasks task = none ∧ s'.vault = s.vault
  | .abandoned         => (s'.vault.table.get? call.runId).isSome
  | .done _ | .dropped => (s'.vault.table.get? call.runId).isSome ↔ s'.Busy call.runId
  | .reaching | .asking | .opened | .loaded _ | .driven _ | .stored _ => True

structure Moves (s s' : Traffic ω) (task : TaskId) (call : Call) (standing : Standing ω) :
    Prop where
  moved   : s'.At task call standing
  same    : ∀ {call' old}, s.At task call' old → call' = call
  about   : s.hasParted task = false
  others  : ∀ {other}, other ≠ task → s'.tasks other = s.tasks other
  apart   : ∀ {runId}, call.runId ≠ runId → s'.vault.table.get? runId = s.vault.table.get? runId
  settled : Settled s s' task call standing

namespace Moves

theorem begin (idle : s.tasks task = none)
    (apart : ∀ {runId}, call.runId ≠ runId → vault.table.get? runId = s.vault.table.get? runId)
    (settled : Settled s { s.put task call standing with vault, locks, store, obtained } task call
      standing) :
    Moves s { s.put task call standing with vault, locks, store, obtained } task call standing where
  moved := at_put_self
  same holds := by
    rw [At, idle] at holds
    cases holds
  about := by rw [Traffic.hasParted, idle, Option.any_none]
  others hne := Function.update_of_ne hne _ _
  apart := apart
  settled := settled

theorem goOn (holds : s.At task call old) (about : old.hasParted = false)
    (apart : ∀ {runId}, call.runId ≠ runId → vault.table.get? runId = s.vault.table.get? runId)
    (settled : Settled s { s.put task call standing with vault, locks, store, obtained } task call
      standing) :
    Moves s { s.put task call standing with vault, locks, store, obtained } task call standing where
  moved := at_put_self
  same holds' := by
    rw [At, holds] at holds'
    cases holds'
    rfl
  about := by rw [Traffic.hasParted, holds, Option.any_some, about]
  others hne := Function.update_of_ne hne _ _
  apart := apart
  settled := settled

end Moves

theorem Attended.isSome_get? (h : s.Attended) (sound : s.vault.Sound)
    (holds : s.At task call standing) (busy : standing.isBusy) :
    (s.vault.table.get? call.runId).isSome := by
  obtain ⟨cell, hm⟩ := h.refers holds busy
  rw [sound.referred hm]
  rfl

theorem Step.moves (step : Step engine s s') (sound : s.vault.Sound) (h : s.Attended) :
    ∃ task call standing, Moves s s' task call standing := by
  have after := step.attended h
  cases step with
  | refuse idle           => exact ⟨_, _, _, .begin idle (fun _ => rfl) ⟨idle, rfl⟩⟩
  | find idle             => exact ⟨_, _, _, .begin idle (fun _ => rfl) trivial⟩
  | make idle             =>
    exact ⟨_, _, _, .begin idle (fun hr => by simp [Vault.refer, Vault.make, hr]) trivial⟩
  | ask reaching          => exact ⟨_, _, _, .goOn reaching rfl (fun _ => rfl) trivial⟩
  | obtain asking         => exact ⟨_, _, _, .goOn asking rfl (fun _ => rfl) trivial⟩
  | load opened           => exact ⟨_, _, _, .goOn opened rfl (fun _ => rfl) trivial⟩
  | drive _ _ loaded      => exact ⟨_, _, _, .goOn loaded rfl (fun _ => rfl) trivial⟩
  | store driven          => exact ⟨_, _, _, .goOn driven rfl (fun _ => rfl) trivial⟩
  | leave reaching        =>
    exact ⟨_, _, _, .goOn reaching rfl (fun _ => rfl) (h.isSome_get? sound reaching rfl)⟩
  | abandon asking        =>
    exact ⟨_, _, _, .goOn asking rfl (fun _ => rfl) (h.isSome_get? sound asking rfl)⟩
  | @close task call standing last cell holds refers closes =>
    have settled := (Vault.isSome_get?_release sound refers).trans after.busy_iff.symm
    have about := Standing.not_hasParted_of_isOpen closes.isOpen
    refine ⟨task, call, last, .goOn holds about (fun hr => Vault.get?_release_of_ne hr) ?_⟩
    cases closes <;> exact settled

theorem hasParted_of_at (h : s.At task call standing) : s.hasParted task = standing.hasParted := by
  rw [hasParted, h, Option.any_some]

namespace Moves

variable (moves : Moves s s' task call standing)

include moves

theorem not_hasParted (same : s'.hasParted = s.hasParted) : standing.hasParted = false := by
  rw [← hasParted_of_at moves.moved, same, moves.about]

theorem hasParted_eq (unparted : standing.hasParted = false) : s'.hasParted = s.hasParted := by
  funext other
  by_cases hother : other = task
  case pos => rw [hother, hasParted_of_at moves.moved, unparted, moves.about]
  case neg => rw [Traffic.hasParted, moves.others hother, Traffic.hasParted]

theorem eq_of_parted (before : s.hasParted other = false) (after : s'.hasParted other) :
    other = task := by
  by_contra hne
  rw [Traffic.hasParted, moves.others hne, ← Traffic.hasParted, before] at after
  cases after

theorem kept (parted : s.hasParted other) : s'.tasks other = s.tasks other := by
  refine moves.others ?_
  rintro rfl
  rw [moves.about] at parted
  cases parted

theorem busy_iff
    (before : ∀ {call' old}, s.At task call' old → call'.runId = runId → ¬old.isBusy)
    (after : call.runId = runId → ¬standing.isBusy) : s'.Busy runId ↔ s.Busy runId := by
  constructor
  · rintro ⟨other, call', standing', holds, rfl, busy⟩
    have hne : other ≠ task := by
      rintro rfl
      rw [At, moves.moved] at holds
      cases holds
      exact after rfl busy
    exact ⟨other, call', standing', (moves.others hne).symm.trans holds, rfl, busy⟩
  · rintro ⟨other, call', standing', holds, rfl, busy⟩
    have hne : other ≠ task := by
      rintro rfl
      exact before holds rfl busy
    exact ⟨other, call', standing', (moves.others hne).trans holds, rfl, busy⟩

theorem busy_iff_of_ne (hr : call.runId ≠ runId) : s'.Busy runId ↔ s.Busy runId :=
  moves.busy_iff (fun holds same => absurd (moves.same holds ▸ same) hr) fun same => absurd same hr

end Moves

theorem leftBehind_congr (h : ∀ task ∈ order, s'.tasks task = s.tasks task) :
    s'.LeftBehind order runId ↔ s.LeftBehind order runId := by
  have line : order.filter (s'.addresses runId) = order.filter (s.addresses runId) :=
    List.filter_congr fun task hm => by rw [addresses, h task hm, addresses]
  rw [LeftBehind, line]
  refine exists_congr fun task => and_congr_right fun hm => ?_
  have inOrder : task ∈ order := List.mem_of_mem_filter (List.mem_of_getLast? hm)
  rw [gaveUp, h task inOrder, gaveUp]

theorem leftBehind_append_self (holds : s.At task call standing) :
    s.LeftBehind (order ++ [task]) call.runId ↔ standing.gaveUp := by
  rw [LeftBehind, List.filter_append, List.filter_singleton, addresses_of_at holds]
  simp [gaveUp, show s.tasks task = some _ from holds]

theorem leftBehind_append_of_ne (holds : s.At task call standing) (hr : call.runId ≠ runId) :
    s.LeftBehind (order ++ [task]) runId ↔ s.LeftBehind order runId := by
  rw [LeftBehind, List.filter_append, List.filter_singleton, addresses_of_at holds]
  simp [hr, LeftBehind]

def Tracks (s : Traffic ω) (order : List TaskId) : Prop :=
  ∀ runId, (s.vault.table.get? runId).isSome ↔ s.Busy runId ∨ s.LeftBehind order runId

theorem Moves.tracks (moves : Moves s s' task call standing) (sound : s'.vault.Sound)
    (attended : s'.Attended) (parted : ∀ task ∈ order, s.hasParted task) (h : s.Tracks order) :
    s'.Tracks (if standing.hasParted then order ++ [task] else order) := by
  have kept : ∀ {runId}, s'.LeftBehind order runId ↔ s.LeftBehind order runId :=
    leftBehind_congr fun other hm => moves.kept (parted other hm)
  intro runId
  by_cases hr : call.runId = runId
  case neg =>
    rw [moves.apart hr, moves.busy_iff_of_ne hr, h runId]
    split
    case isTrue  => rw [leftBehind_append_of_ne moves.moved hr, kept]
    case isFalse => rw [kept]
  case pos =>
    subst hr
    have settled := moves.settled
    by_cases busy : standing.isBusy
    case pos =>
      exact iff_of_true (attended.isSome_get? sound moves.moved busy)
        (.inl ⟨task, call, standing, moves.moved, rfl, busy⟩)
    case neg =>
      have last : s'.LeftBehind (order ++ [task]) call.runId ↔ standing.gaveUp :=
        leftBehind_append_self moves.moved
      cases standing with
      | refused error =>
        obtain ⟨idle, same⟩ := settled
        have quiet : s'.Busy call.runId ↔ s.Busy call.runId := by
          refine moves.busy_iff (fun holds => ?_) fun _ => busy
          rw [At, idle] at holds
          cases holds
        rw [same, quiet, h call.runId]
        exact or_congr_right kept.symm
      | abandoned => exact iff_of_true settled (.inr (last.mpr rfl))
      | done | dropped =>
        refine settled.trans (or_iff_left ?_).symm
        exact fun left => Bool.false_ne_true (last.mp left)
      | _ => exact absurd rfl busy

theorem Reaches.attended (reached : Reaches engine first s) : s.Attended := by
  induction reached with
  | start          => exact ⟨by rintro _ ⟨⟩, by rintro _ _ _ ⟨⟩⟩
  | step _ step ih => exact step.attended ih

namespace Departs

theorem reaches (h : Departs engine first s order) : Reaches engine first s := by
  induction h with
  | start              => exact .start
  | stay _ step _ ih   => exact .step ih step
  | part _ step _ _ ih => exact .step ih step

theorem hasParted (h : Departs engine first s order) : ∀ task ∈ order, s.hasParted task := by
  induction h with
  | start => exact List.forall_mem_nil _
  | stay _ _ same ih =>
    rw [same]
    exact ih
  | part before step _ parted ih =>
    have reached := before.reaches
    obtain ⟨_, _, _, moves⟩ := step.moves reached.orderly.keeps.sound reached.attended
    refine List.forall_mem_append.mpr ⟨fun other hm => ?_, List.forall_mem_singleton.mpr parted⟩
    rw [Traffic.hasParted, moves.kept (ih other hm)]
    exact ih other hm

theorem tracks (h : Departs engine first s order) : s.Tracks order := by
  induction h with
  | start =>
    intro runId
    refine iff_of_false (by simp [Traffic.start, Vault.empty]) ?_
    rintro (⟨_, _, _, ⟨⟩, _⟩ | ⟨_, ⟨⟩, _⟩)
  | stay before step same ih =>
    have reached := before.reaches
    have after := reached.step step
    obtain ⟨_, _, standing, moves⟩ := step.moves reached.orderly.keeps.sound reached.attended
    have := moves.tracks after.orderly.keeps.sound after.attended before.hasParted ih
    rwa [moves.not_hasParted same] at this
  | part before step about parted ih =>
    have reached := before.reaches
    have after := reached.step step
    obtain ⟨_, _, standing, moves⟩ := step.moves reached.orderly.keeps.sound reached.attended
    have := moves.tracks after.orderly.keeps.sound after.attended before.hasParted ih
    obtain rfl := moves.eq_of_parted about parted
    rwa [← hasParted_of_at moves.moved, parted] at this

end Departs

theorem Reaches.exists_departs (reached : Reaches engine first s) :
    ∃ order, Departs engine first s order := by
  induction reached with
  | start => exact ⟨[], .start⟩
  | @step s s' reached step ih =>
    obtain ⟨order, before⟩ := ih
    obtain ⟨task, call, standing, moves⟩ := step.moves reached.orderly.keeps.sound reached.attended
    by_cases parted : standing.hasParted
    case pos =>
      exact ⟨_, before.part step moves.about ((hasParted_of_at moves.moved).trans parted)⟩
    case neg =>
      exact ⟨order, before.stay step (moves.hasParted_eq (eq_false_of_ne_true parted))⟩

-- The locks in the table are those of the runs that are busy, and those that were given up by the
-- last task about their run. The order in which tasks part from their locks tells which one that
-- was.
structure Tabled (engine : Engine ω) (first : Store) (s : Traffic ω) : Prop where
  ordered : ∃ order, Departs engine first s order
  -- The lock of a run is in the table exactly if the run is busy, or if the last task that parted
  -- from the lock had given up its request.
  tracked : ∀ {order}, Departs engine first s order → ∀ runId,
    (s.vault.table.get? runId).isSome ↔ s.Busy runId ∨ s.LeftBehind order runId
  -- Where no request is given up, the table has the locks of the busy runs.
  patient : ∀ {runId}, (∀ {task call}, s.At task call .abandoned → call.runId ≠ runId) →
    ((s.vault.table.get? runId).isSome ↔ s.Busy runId)
  idle : (∀ {task call}, ¬s.At task call .abandoned) → (∀ runId, ¬s.Busy runId) →
    s.vault.table = .empty

theorem LeftBehind.exists_abandoned (h : s.LeftBehind order runId) :
    ∃ task call, s.At task call .abandoned ∧ call.runId = runId := by
  obtain ⟨task, last, gaveUp⟩ := h
  have addressed := (List.mem_filter.mp (List.mem_of_getLast? last)).2
  rcases effort : s.tasks task with _ | ⟨call, standing⟩
  case none =>
    rw [Traffic.gaveUp, effort] at gaveUp
    cases gaveUp
  case some =>
    rw [addresses_of_at effort, decide_eq_true_eq] at addressed
    rw [Traffic.gaveUp, effort, Option.any_some] at gaveUp
    cases standing with
    | abandoned => exact ⟨task, call, effort, addressed⟩
    | _ => cases gaveUp

theorem Reaches.tabled (reached : Reaches engine first s) : s.Tabled engine first := by
  obtain ⟨order, departs⟩ := reached.exists_departs
  have patient {runId} (h : ∀ {task call}, s.At task call .abandoned → call.runId ≠ runId) :
      (s.vault.table.get? runId).isSome ↔ s.Busy runId := by
    refine (departs.tracks runId).trans (or_iff_left fun left => ?_)
    obtain ⟨task, call, abandoned, here⟩ := left.exists_abandoned
    exact h abandoned here
  refine ⟨⟨order, departs⟩, fun departs runId => departs.tracks runId, patient, ?_⟩
  intro never idle
  refine Dict.ext_get? fun runId => ?_
  have tabled : (s.vault.table.get? runId).isSome ↔ s.Busy runId :=
    patient fun abandoned => absurd abandoned never
  rw [Option.not_isSome_iff_eq_none.mp (tabled.not.mpr (idle runId)), Dict.get?_empty]

end Traffic

namespace Traffic.Doorbell

theorem passed_on :
    ∃ s, Reaches office first s ∧ s.At 2 (ring 2) .asking ∧
      (∀ {task call standing}, task ≠ 2 → s.At task call standing → standing = .dropped) ∧
      ⟨2, "r", 0⟩ ∈ s.vault.refs ∧ s.vault.table.get? "r" = some 0 ∧
      (s.vault.cells 0).owner = some 2 := by
  have r₁ := Reaches.start.step (@Step.make _ office (.start first) 1 (ring 1) rfl rfl rfl)
  have r₂ := r₁.step (@Step.ask _ _ _ 1 (ring 1) 0 rfl (by decide))
  have r₃ := r₂.step (@Step.obtain _ _ _ 1 (ring 1) 0 rfl (by decide) rfl)
  have r₄ := r₃.step (@Step.find _ _ _ 2 (ring 2) 0 rfl rfl rfl)
  have r₅ := r₄.step (@Step.ask _ _ _ 2 (ring 2) 0 rfl (by decide))
  have r₆ := r₅.step (@Step.close _ _ _ 1 (ring 1) _ _ 0 rfl (by decide) (.dropped rfl rfl))
  refine ⟨_, r₆, rfl, fun {task call standing} hne holds => ?_, by decide, rfl, rfl⟩
  by_cases one : task = 1
  case pos =>
    subst one
    cases holds
    rfl
  case neg =>
    rw [At, show Traffic.tasks _ task = none by simp [put, hne, one, Traffic.start]] at holds
    cases holds

theorem cleared :
    ∃ s, Reaches office first s ∧ s.At 2 (ring 2) .dropped ∧ s.vault.table = .empty := by
  obtain ⟨s, reached, asking, others, refs, -, owner⟩ := passed_on
  have opened : (s.put 2 (ring 2) .opened).At 2 (ring 2) .opened := at_put_self
  have closed : ((s.put 2 (ring 2) .opened).put 2 (ring 2) .dropped).At 2 (ring 2) .dropped :=
    at_put_self
  have r₁ := reached.step (@Step.obtain _ _ _ 2 (ring 2) 0 asking refs owner)
  have r₂ := r₁.step (@Step.close _ _ _ 2 (ring 2) .opened _ 0 opened refs (.dropped rfl rfl))
  obtain ⟨s', reached, mine, dropped⟩ : ∃ s', Reaches office first s' ∧ s'.At 2 (ring 2) .dropped ∧
      ∀ {task call standing}, s'.At task call standing → standing = .dropped := by
    refine ⟨_, r₂, closed, fun {task call standing} holds => ?_⟩
    obtain ⟨-, -, rfl⟩ | ⟨hne, holds⟩ := at_put.mp holds
    · rfl
    · obtain ⟨rfl, -⟩ | ⟨-, holds⟩ := at_put.mp holds
      · exact absurd rfl hne
      · exact others hne holds
  refine ⟨s', reached, mine, reached.tabled.idle (fun holds => ?_) ?_⟩
  · cases dropped holds
  · rintro runId ⟨task, call, standing, holds, -, busy⟩
    rw [dropped holds] at busy
    cases busy

theorem left_behind :
    ∃ s, Reaches office first s ∧ s.vault.table.get? "r" = some 0 ∧ ∀ runId, ¬s.Busy runId := by
  obtain ⟨s, reached, asking, others, refs, found, -⟩ := passed_on
  refine ⟨_, reached.step (@Step.abandon _ _ _ 2 (ring 2) 0 asking refs), found, ?_⟩
  rintro runId ⟨task, call, standing, holds, -, busy⟩
  obtain ⟨-, -, rfl⟩ | ⟨hne, holds⟩ := at_put.mp holds
  · cases busy
  · rw [others hne holds] at busy
    cases busy

end Traffic.Doorbell

end DurableWorkflow
