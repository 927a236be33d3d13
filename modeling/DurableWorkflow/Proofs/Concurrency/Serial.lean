import DurableWorkflow.Proofs.Concurrency.Exclusion
import Mathlib.Data.List.Basic

namespace DurableWorkflow

namespace Traffic

variable {ω : Type} {engine : Engine ω} {first : Store} {s s' : Traffic ω} {task other : TaskId}
  {call : Call} {standing old : Standing ω} {drive : Drive ω} {runId : String}
  {vault : Vault} {locks : Locks} {store : Store}

theorem addresses_of_at (h : s.At task call standing) :
    s.addresses runId task = decide (call.runId = runId) := by
  rw [addresses, h, Option.any_some]

theorem hasObtained_of_at (h : s.At task call standing) :
    s.hasObtained task = standing.hasObtained := by
  rw [hasObtained, h, Option.any_some]

theorem at_put_self : (s.put task call standing).At task call standing :=
  at_put.mpr (.inl ⟨rfl, rfl, rfl⟩)

theorem addresses_put_of_ne (h : other ≠ task) :
    (s.put task call standing).addresses runId other = s.addresses runId other := by
  simp [addresses, put, h]

theorem addresses_put (h : s.At task call old) :
    (s.put task call standing).addresses runId = s.addresses runId := by
  funext other
  by_cases hother : other = task
  · subst hother
    rw [addresses_of_at at_put_self, addresses_of_at h]
  · exact addresses_put_of_ne hother

theorem hasObtained_put_of_ne (h : other ≠ task) :
    (s.put task call standing).hasObtained other = s.hasObtained other := by
  simp [hasObtained, put, h]

theorem line_put (h : s.At task call old) :
    Traffic.line { s.put task call standing with vault, locks, store } runId = s.line runId :=
  congrArg (s.obtained.filter ·) (addresses_put h)

theorem line_put_of_not_mem (h : task ∉ s.obtained) :
    Traffic.line { s.put task call standing with vault, locks, store } runId = s.line runId :=
  List.filter_congr fun _ hm => addresses_put_of_ne fun heq => h (heq ▸ hm)

theorem line_obtain (h : s.At task call old) :
    Traffic.line { s.put task call standing with obtained := s.obtained ++ [task] } runId =
      s.line runId ++ if call.runId = runId then [task] else [] := by
  have : Traffic.addresses
      { s.put task call standing with obtained := s.obtained ++ [task] } runId =
      s.addresses runId := addresses_put h
  rw [line, this, List.filter_append, line, List.filter_cons, List.filter_nil,
    addresses_of_at h]
  simp

-- The tasks that obtained a lock are in line, and who has an open unit of work is the last one in
-- the line of its run.
structure Lined (s : Traffic ω) : Prop where
  entered : ∀ {task}, task ∈ s.obtained ↔ s.hasObtained task
  nodup   : s.obtained.Nodup
  latest  : ∀ ⦃task call standing⦄, s.At task call standing → standing.isOpen →
    (s.line call.runId).getLast? = some task

namespace Lined

theorem not_mem_of_idle (h : s.Lined) (idle : s.tasks task = none) : task ∉ s.obtained := by
  simp [h.entered, Traffic.hasObtained, idle]

theorem not_mem_of_at (h : s.Lined) (holds : s.At task call old)
    (outside : old.hasObtained = false) : task ∉ s.obtained := by
  simp [h.entered, hasObtained_of_at holds, outside]

theorem begin (h : s.Lined) (idle : s.tasks task = none) (outside : standing.hasObtained = false) :
    Lined { s.put task call standing with vault, locks, store } where
  entered {other} := by
    by_cases hother : other = task
    case pos =>
      subst hother
      have outside : (s.put other call standing).hasObtained other = false :=
        (hasObtained_of_at at_put_self).trans outside
      exact iff_of_false (h.not_mem_of_idle idle) (ne_true_of_eq_false outside)
    case neg =>
      exact h.entered.trans (Bool.coe_iff_coe.mpr (hasObtained_put_of_ne hother).symm)
  nodup := h.nodup
  latest {other call' standing'} holds isOpen := by
    rw [line_put_of_not_mem (h.not_mem_of_idle idle)]
    obtain ⟨-, -, rfl⟩ | ⟨-, holds⟩ := at_put.mp holds
    · have := Standing.hasObtained_of_isOpen isOpen
      rw [outside] at this
      cases this
    · exact h.latest holds isOpen

theorem move (h : s.Lined) (holds : s.At task call old)
    (same : standing.hasObtained = old.hasObtained) (closing : standing.isOpen → old.isOpen) :
    Lined { s.put task call standing with vault, locks, store } where
  entered {other} := by
    refine h.entered.trans (Bool.coe_iff_coe.mpr ?_)
    by_cases hother : other = task
    case pos =>
      subst hother
      rw [hasObtained_of_at holds, ← same]
      exact (hasObtained_of_at at_put_self).symm
    case neg => exact (hasObtained_put_of_ne hother).symm
  nodup := h.nodup
  latest {other call' standing'} holds' isOpen := by
    rw [line_put holds]
    obtain ⟨rfl, rfl, rfl⟩ | ⟨-, holds'⟩ := at_put.mp holds'
    · exact h.latest holds (closing isOpen)
    · exact h.latest holds' isOpen

theorem obtain (h : s.Lined) (asking : s.At task call .asking)
    (free : ∀ {other call' standing'}, s.At other call' standing' → standing'.isOpen →
      call.runId ≠ call'.runId) :
    Lined { s.put task call .opened with obtained := s.obtained ++ [task] } where
  entered {other} := by
    rw [List.mem_append, List.mem_singleton, h.entered]
    by_cases hother : other = task
    case pos =>
      subst hother
      exact iff_of_true (.inr rfl) (hasObtained_of_at at_put_self)
    case neg =>
      rw [or_iff_left hother]
      exact Bool.coe_iff_coe.mpr (hasObtained_put_of_ne hother).symm
  nodup := by
    have := h.not_mem_of_at asking rfl
    rw [List.nodup_append]
    refine ⟨h.nodup, List.pairwise_singleton _ task, fun _ hm _ hm' => ?_⟩
    rw [List.mem_singleton.mp hm']
    exact ne_of_mem_of_not_mem hm this
  latest {other call' standing'} holds isOpen := by
    rw [line_obtain asking]
    obtain ⟨rfl, rfl, -⟩ | ⟨hne, holds⟩ := at_put.mp holds
    · simp
    · rw [if_neg (free holds isOpen), List.append_nil]
      exact h.latest holds isOpen

end Lined

theorem Step.lined (step : Step engine s s') (keeps : s.vault.Keeps s.locks) (owned : s.Owned)
    (h : s.Lined) : s'.Lined := by
  cases step with
  | refuse idle | find idle | make idle => exact h.begin idle rfl
  | ask reaching     => exact h.move reaching rfl (by rintro ⟨⟩)
  | leave reaching   => exact h.move reaching rfl (by rintro ⟨⟩)
  | abandon asking   => exact h.move asking rfl (by rintro ⟨⟩)
  | load opened      => exact h.move opened rfl fun _ => rfl
  | drive _ _ loaded => exact h.move loaded rfl fun _ => rfl
  | store driven     => exact h.move driven rfl fun _ => rfl
  | close holds _ closes =>
    exact h.move holds closes.hasObtained fun _ => closes.isOpen
  | obtain asking refers granted =>
    refine h.obtain asking fun holds isOpen hr => ?_
    -- The owner of the lock has no unit of work open, since it is still asking.
    rw [keeps.cell_eq refers, hr, owned holds isOpen] at granted
    cases granted
    rw [At, asking] at holds
    cases holds
    cases isOpen

theorem deed?_of_at (h : s.At task call standing) :
    s.deed? task = standing.drive?.map (⟨call, ·⟩) := by
  rw [deed?, h, Option.bind_some]

theorem deed?_put_of_ne (h : other ≠ task) :
    (s.put task call standing).deed? other = s.deed? other := by
  simp [deed?, put, h]

theorem deed?_put (h : s.deed? task = standing.drive?.map (⟨call, ·⟩)) :
    (s.put task call standing).deed? = s.deed? := by
  funext other
  by_cases hother : other = task
  · subst hother
    rw [h]
    exact deed?_of_at at_put_self
  · exact deed?_put_of_ne hother

theorem history_begin (lined : s.Lined) (idle : s.tasks task = none)
    (undone : standing.drive? = none) :
    Traffic.history { s.put task call standing with vault, locks, store } runId =
      s.history runId := by
  have same : (s.put task call standing).deed? = s.deed? :=
    deed?_put (by rw [deed?, idle, undone]; rfl)
  rw [history, line_put_of_not_mem (lined.not_mem_of_idle idle)]
  exact congrArg (fun deed? => (s.line runId).filterMap deed?) same

theorem history_move (holds : s.At task call old) (same : standing.drive? = old.drive?) :
    Traffic.history { s.put task call standing with vault, locks, store } runId =
      s.history runId := by
  have same : (s.put task call standing).deed? = s.deed? :=
    deed?_put (by rw [deed?_of_at holds, same])
  rw [history, line_put holds]
  exact congrArg (fun deed? => (s.line runId).filterMap deed?) same

theorem history_obtain (asking : s.At task call .asking) :
    Traffic.history { s.put task call .opened with obtained := s.obtained ++ [task] } runId =
      s.history runId := by
  have same : (s.put task call .opened).deed? = s.deed? :=
    deed?_put (by rw [deed?_of_at asking]; rfl)
  have mine : ([task] : List TaskId).filterMap s.deed? = [] := by
    simp [deed?_of_at asking, Standing.drive?]
  rw [history, line_obtain asking]
  refine (congrArg (List.filterMap · _) same).trans ?_
  rw [List.filterMap_append, history]
  split <;> simp [mine]

theorem history_finish (lined : s.Lined) (driven : s.At task call (.driven drive))
    (finished : standing.drive? = some drive) :
    Traffic.history { s.put task call standing with vault, locks, store } runId =
      s.history runId ++ if call.runId = runId then [⟨call, drive⟩] else [] := by
  have others {line : List TaskId} (h : task ∉ line) :
      line.filterMap (s.put task call standing).deed? = line.filterMap s.deed? :=
    List.filterMap_congr fun _ hm => deed?_put_of_ne (ne_of_mem_of_not_mem hm h)
  have before : s.deed? task = none := deed?_of_at driven
  have after : (s.put task call standing).deed? task = some ⟨call, drive⟩ := by
    rw [deed?_of_at at_put_self, finished]
    rfl
  rw [history, line_put driven]
  change (s.line runId).filterMap (s.put task call standing).deed? = _
  split
  case isTrue hr =>
    subst hr
    have ⟨earlier, he⟩ := List.getLast?_eq_some_iff.mp (lined.latest driven rfl)
    have fresh : task ∉ earlier := by
      have nodup : (s.line call.runId).Nodup := lined.nodup.filter _
      rw [he, List.nodup_append] at nodup
      exact fun hm => nodup.2.2 task hm task (List.mem_singleton.mpr rfl) rfl
    rw [history, he, List.filterMap_append, List.filterMap_append, others fresh]
    simp [before, after]
  case isFalse hr =>
    have outside : task ∉ s.line runId := by
      simp [line, addresses_of_at driven, hr]
    rw [others outside, List.append_nil, history]

-- Deeds of which each loads what the one before it left.
def Chain (engine : Engine ω) : Option Run → List (Deed ω) → Option Run → Prop
  | run, [], last           => run = last
  | run, deed :: rest, last => deed.drive.loaded = run ∧ Chain engine (deed.left engine) rest last

theorem Chain.snoc {run last : Option Run} {deeds : List (Deed ω)} {deed : Deed ω}
    (h : Chain engine run deeds last) (loaded : deed.drive.loaded = last) :
    Chain engine run (deeds ++ [deed]) (deed.left engine) := by
  induction deeds generalizing run with
  | nil          => exact ⟨loaded.trans h.symm, rfl⟩
  | cons _ _ ih  => exact ⟨h.1, ih h.2⟩

def Chained (engine : Engine ω) (first : Store) (s : Traffic ω) : Prop :=
  ∀ runId, Chain engine (first.get? runId) (s.history runId) (s.store.get? runId)

namespace Chained

theorem same (h : s.Chained engine first) (history : ∀ runId, s'.history runId = s.history runId)
    (store : s'.store = s.store) : s'.Chained engine first := by
  intro runId
  rw [history, store]
  exact h runId

theorem finish (h : s.Chained engine first) (current : s.Current) (lined : s.Lined)
    (driven : s.At task call (.driven drive)) (finished : standing.drive? = some drive) :
    Traffic.Chained engine first { s.put task call standing with
      vault, locks, store := s.store.commit call.runId (Deed.staged engine ⟨call, drive⟩) } := by
  intro runId
  rw [history_finish lined driven finished]
  have loaded := current driven rfl
  by_cases hr : call.runId = runId
  case pos =>
    subst hr
    rw [if_pos rfl, Store.get?_commit_self, ← loaded]
    exact (h call.runId).snoc loaded
  case neg =>
    rw [if_neg hr, List.append_nil, Store.get?_commit_of_ne hr]
    exact h runId

end Chained

theorem Step.chained (step : Step engine s s') (current : s.Current) (lined : s.Lined)
    (h : s.Chained engine first) : s'.Chained engine first := by
  cases step with
  | refuse idle | find idle | make idle =>
    exact h.same (fun _ => history_begin lined idle rfl) rfl
  | ask reaching     => exact h.same (fun _ => history_move reaching rfl) rfl
  | leave reaching   => exact h.same (fun _ => history_move reaching rfl) rfl
  | abandon asking   => exact h.same (fun _ => history_move asking rfl) rfl
  | obtain asking    => exact h.same (fun _ => history_obtain asking) rfl
  | load opened      => exact h.same (fun _ => history_move opened rfl) rfl
  | drive _ _ loaded => exact h.same (fun _ => history_move loaded rfl) rfl
  | @store task call drive run driven staged =>
    have : Chained engine first { s.put task call (.stored drive) with
      store := s.store.commit call.runId (Deed.staged engine ⟨call, drive⟩) } :=
      h.finish current lined driven rfl
    rwa [staged] at this
  | @close task call standing last cell holds refers closes =>
    cases closes with
    | stored            => exact h.same (fun _ => history_move holds rfl) rfl
    | dropped _ pending => exact h.same (fun _ => history_move holds pending.symm) rfl
    | @settled drive staged =>
      have : Chained engine first { s.put task call (.done drive) with
        vault := s.vault.release ⟨task, call.runId, cell⟩
        locks := s.locks.release call.runId
        store := s.store.commit call.runId (Deed.staged engine ⟨call, drive⟩) } :=
        h.finish current lined holds rfl
      rwa [staged] at this

def Founded (engine : Engine ω) (s : Traffic ω) : Prop :=
  ∀ ⦃task call error⦄, s.At task call (.refused error) → engine.refusal? call = some error

theorem Step.founded (step : Step engine s s') (h : s.Founded engine) : s'.Founded engine := by
  intro other call' error holds
  cases step with
  | refuse _ refused =>
    obtain ⟨rfl, rfl, ⟨⟩⟩ | ⟨-, holds⟩ := at_put.mp holds
    · exact refused
    · exact h holds
  | close _ _ closes =>
    obtain ⟨_, _, rfl⟩ | ⟨-, holds⟩ := at_put.mp holds
    · cases closes
    · exact h holds
  | _ =>
    obtain ⟨_, _, ⟨⟩⟩ | ⟨-, holds⟩ := at_put.mp holds
    exact h holds

structure Orderly (engine : Engine ω) (first : Store) (s : Traffic ω) : Prop where
  keeps     : s.vault.Keeps s.locks
  owned     : s.Owned
  housed    : s.Housed
  referring : s.Referring
  current   : s.Current
  lined     : s.Lined
  chained   : s.Chained engine first
  founded   : s.Founded engine

theorem Orderly.start : Orderly engine first (.start first) where
  keeps     := .empty
  owned     := by rintro _ _ _ ⟨⟩
  housed    := ⟨fun _ => .nil, by rintro _ _ ⟨⟩⟩
  referring := by rintro _ _ _ ⟨⟩
  current   := by rintro _ _ _ _ ⟨⟩
  lined     := ⟨by simp [Traffic.start, hasObtained], .nil, by rintro _ _ _ ⟨⟩⟩
  chained   := fun _ => rfl
  founded   := by rintro _ _ _ ⟨⟩

theorem Step.orderly (step : Step engine s s') (h : s.Orderly engine first) :
    s'.Orderly engine first where
  keeps     := step.keeps h.owned h.housed h.referring h.keeps
  owned     := step.owned h.keeps h.owned
  housed    := step.housed h.owned h.housed
  referring := step.referring h.referring
  current   := step.current h.owned h.current
  lined     := step.lined h.keeps h.owned h.lined
  chained   := step.chained h.current h.lined h.chained
  founded   := step.founded h.founded

theorem Reaches.orderly (reached : Reaches engine first s) : s.Orderly engine first := by
  induction reached with
  | start          => exact .start
  | step _ step ih => exact step.orderly ih

end Traffic

end DurableWorkflow
