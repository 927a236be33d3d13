import DurableWorkflow.Proofs.Engine.Atomicity
import DurableWorkflow.Proofs.Engine.Overlap
import DurableWorkflow.Proofs.Workflow.Seclusion
import Mathlib.Algebra.BigOperators.Group.List.Basic
import Mathlib.Algebra.GroupWithZero.Nat

namespace DurableWorkflow

namespace DueTimer

variable {first second third : DueTimer}

theorem le_iff : first.le second ↔
    first.runId < second.runId ∨ first.runId = second.runId ∧ first.resumeId ≤ second.resumeId := by
  rw [le]
  split
  case isTrue same   => simp [same]
  case isFalse other => simp [other]

theorem le_trans (h₁ : first.le second) (h₂ : second.le third) : first.le third := by
  rw [le_iff] at *
  obtain lt | ⟨same, le⟩ := h₁ <;> obtain lt' | ⟨same', le'⟩ := h₂
  · exact .inl (String.lt_trans lt lt')
  · exact .inl (same' ▸ lt)
  · exact .inl (same ▸ lt')
  · exact .inr ⟨same.trans same', String.le_trans le le'⟩

theorem le_total (first second : DueTimer) : first.le second || second.le first := by
  rw [Bool.or_eq_true, le_iff, le_iff]
  by_cases same : first.runId = second.runId
  case pos =>
    exact (String.le_total first.resumeId second.resumeId).imp (.inr ⟨same, ·⟩) (.inr ⟨same.symm, ·⟩)
  case neg =>
    exact (String.le_total first.runId second.runId).imp
      (.inl <| Std.lt_of_le_of_ne · same) (.inl <| Std.lt_of_le_of_ne · (Ne.symm same))

theorem le_antisymm (h₁ : first.le second) (h₂ : second.le first) : first = second := by
  rw [le_iff] at *
  obtain lt | ⟨same, le⟩ := h₁ <;> obtain lt' | ⟨same', le'⟩ := h₂
  · exact absurd lt' (String.lt_asymm lt)
  · exact absurd (same' ▸ lt) (String.lt_irrefl _)
  · exact absurd (same ▸ lt') (String.lt_irrefl _)
  · obtain ⟨runId, resumeId⟩ := first
    cases same
    cases String.le_antisymm le le'
    rfl

theorem sorted_mergeSort (timers : List DueTimer) :
    (timers.mergeSort le).Pairwise fun first second => first.le second :=
  @List.pairwise_mergeSort _ le (fun _ _ _ => le_trans) le_total timers

end DueTimer

namespace Store

variable {store : Store} {now : Timestamp} {runId : String}

theorem listDue_sorted (now : Timestamp) (store : Store) :
    (store.listDue now).Pairwise fun first second => first.le second :=
  DueTimer.sorted_mergeSort _

theorem commit_only {loaded staged : Option Run} :
    (only runId loaded).commit runId staged = only runId (staged.or loaded) := by
  refine Dict.ext_get? fun other => ?_
  cases staged <;> cases loaded <;> simp only [only, commit, Option.or, Dict.get?_insert]
  grind

theorem dueAmong_filter {runs : List (String × Run)} :
    (dueAmong now runs).filter (·.runId = runId) = dueAmong now (runs.filter (·.1 = runId)) := by
  induction runs
  case nil => rfl
  case cons entry rest ih =>
    obtain ⟨id, run⟩ := entry
    rw [dueAmong, List.flatMap_cons, List.filter_append, List.filter_cons]
    by_cases same : id = runId <;>
      simpa [same, dueAmong, List.filter_map, Function.comp_def] using ih

theorem entries_only :
    (only runId (store.get? runId)).entries = store.entries.filter (·.1 = runId) := by
  rw [store.ascending.filter_eq]
  cases h : store.get? runId <;> rw [Dict.get?] at h <;> rw [h] <;> rfl

theorem listDue_only :
    (only runId (store.get? runId)).listDue now = (store.listDue now).filter (·.runId = runId) := by
  refine List.Perm.eq_of_pairwise (fun _ _ _ _ => DueTimer.le_antisymm) (listDue_sorted _ _)
    ((listDue_sorted now store).filter _) ?_
  have alone : dueAmong now (only runId (store.get? runId)).entries =
      (dueAmong now store.entries).filter (·.runId = runId) := by
    rw [entries_only, dueAmong_filter]
  refine (List.mergeSort_perm _ _).trans ?_
  rw [alone]
  exact ((List.mergeSort_perm _ _).filter _).symm

theorem listDue_ordered :
    ((store.listDue now).filter (·.runId = runId)).Pairwise (·.resumeId ≤ ·.resumeId) := by
  refine List.pairwise_filter.mpr ((listDue_sorted now store).imp fun {first second} le of of' => ?_)
  have same : first.runId = second.runId :=
    (of_decide_eq_true of).trans (of_decide_eq_true of').symm
  rcases DueTimer.le_iff.mp le with lt | ⟨_, le⟩
  · exact absurd (same ▸ lt) (String.lt_irrefl _)
  · exact le

end Store

namespace Engine

variable {ω : Type} {engine : Engine ω} {now : Timestamp} {store store' : Store} {call : Call}
  {world world' : ω} {loaded : Option Run} {ending : CallEnd} {timers : List DueTimer}
  {count total : Nat}

def Secluded (engine : Engine ω) (now : Timestamp) : Prop :=
  ∀ workflowType workflow, engine.workflow workflowType = .ok workflow → workflow.Secluded now

theorem secluded_ofPairs {workflows : List (String × Workflow ω)} {config : Config}
    (h : ∀ entry ∈ workflows, entry.2.Secluded now) : Secluded ⟨.ofPairs workflows, config⟩ now := by
  intro workflowType workflow known
  rw [Engine.workflow] at known
  split at known
  case h_1 found =>
    cases known
    exact h _ (Dict.mem_of_get?_ofPairs found)
  case h_2 => cases known

theorem Grants.known {workflow : Workflow ω} {run : Run}
    (h : engine.Grants now loaded call (.drive workflow run)) :
    ∃ workflowType, engine.workflow workflowType = .ok workflow := by
  cases h with
  | run _ known | resume _ known | retry _ _ known => exact ⟨_, known⟩

theorem Secluded.work (h : engine.Secluded now) (call : Call) (loaded : Option Run)
    (world world' : ω) :
    Alike (engine.work now call loaded world) (engine.work now call loaded world') := by
  rw [Engine.work, Engine.work]
  rcases prepared : engine.prepare now (.only call.runId loaded) call with
    error | ⟨workflow, run⟩ | run | _
  case ok.drive =>
    obtain ⟨workflowType, known⟩ := (prepare_only_eq_ok_iff.mp prepared).known
    have same := (h workflowType workflow known).execute engine.config.budget run world world'
    obtain ⟨ended, after, world₁, world₂, passed, passed'⟩ := alike_iff.mp same
    dsimp only
    rw [passed, passed']
    exact ⟨rfl, rfl⟩
  all_goals exact ⟨rfl, rfl⟩

-- A call does the same to its run when there is no other run, and in other surroundings.
theorem Secluded.perform_only (h : engine.Secluded now)
    (performed : engine.perform now call store world = (ending, store', world')) (alone : ω) :
    ∃ alone', engine.perform now call (.only call.runId (store.get? call.runId)) alone =
      (ending, .only call.runId (store'.get? call.runId), alone') := by
  obtain ⟨staged, work, rfl⟩ := perform_eq_iff.mp performed
  have same := h.work call (store.get? call.runId) world alone
  rw [work] at same
  obtain ⟨_, _, _, alone', ⟨⟩, work'⟩ := alike_iff.mp same
  refine ⟨alone', perform_eq_iff.mpr ⟨staged, ?_, ?_⟩⟩
  · rw [Store.get?_only, work']
  · rw [Store.get?_commit_self, Store.commit_only]

structure FallsApart (engine : Engine ω) (now : Timestamp) (timers : List DueTimer) (count : Nat)
    (store : Store) (world : ω) (total : Nat) (store' : Store) (world' : ω) (shares : String → Nat) :
    Prop where
  fired : engine.fire now timers count store world = (.fired total, store', world')
  alone : ∀ runId before (alone : ω), ∃ alone',
    engine.fire now (timers.filter (·.runId = runId)) before (.only runId (store.get? runId)) alone =
      (.fired (before + shares runId), .only runId (store'.get? runId), alone')
  total : ∀ runIds : List String, runIds.Nodup → (∀ timer ∈ timers, timer.runId ∈ runIds) →
    total = count + (runIds.map shares).sum

def resumeAll (engine : Engine ω) (now : Timestamp) : List DueTimer → Store → ω → Nat × Store × ω
  | [], store, world => (0, store, world)
  | timer :: rest, store, world =>
    let (ending, store, world) :=
      engine.perform now (.resume timer.runId timer.resumeId none) store world
    let (count, last) := engine.resumeAll now rest store world
    (ending.passes + count, last)

theorem resumeAll_of_fired (h : engine.fire now timers count store world =
      (.fired total, store', world')) :
    ∃ passes, engine.resumeAll now timers store world = (passes, store', world') ∧
      total = count + passes := by
  induction timers generalizing count store world with
  | nil =>
    cases h
    exact ⟨0, rfl, rfl⟩
  | cons timer rest ih =>
    rcases performed : engine.perform now (.resume timer.runId timer.resumeId none) store world with
      ⟨ending, store₁, world₁⟩
    have returned : ending.returned := by
      rw [fire, performed] at h
      cases ending
      case panicked | unfinished => cases h
      all_goals rfl
    rw [fire_cons performed returned] at h
    obtain ⟨passes, resumed, rfl⟩ := ih h
    refine ⟨ending.passes + passes, ?_, Nat.add_assoc ..⟩
    rw [resumeAll, performed]
    dsimp only
    rw [resumed]

theorem FallsApart.cons {timer : DueTimer} {rest : List DueTimer} {store₁ : Store} {world₁ : ω}
    {shares : String → Nat} (secluded : engine.Secluded now)
    (performed : engine.perform now (.resume timer.runId timer.resumeId none) store world =
      (ending, store₁, world₁))
    (returned : ending.returned)
    (h : engine.FallsApart now rest (count + ending.passes) store₁ world₁ total store' world'
      shares) :
    engine.FallsApart now (timer :: rest) count store world total store' world' fun runId =>
      (if runId = timer.runId then ending.passes else 0) + shares runId := by
  refine { fired := ?fired, alone := ?alone, total := ?total }
  case fired => rw [fire_cons performed returned, h.fired]
  case alone =>
    intro runId before alone
    by_cases addressed : runId = timer.runId
    case pos =>
      subst addressed
      have ⟨alone₁, performed'⟩ := secluded.perform_only performed alone
      have ⟨alone', fired⟩ := h.alone timer.runId (before + ending.passes) alone₁
      refine ⟨alone', ?_⟩
      rw [List.filter_cons_of_pos (by simp), if_pos rfl, ← Nat.add_assoc, ← fired]
      exact fire_cons performed' returned _ before
    case neg =>
      have elsewhere : store₁.get? runId = store.get? runId :=
        perform_elsewhere performed (Ne.symm addressed)
      rw [List.filter_cons_of_neg (by simpa using Ne.symm addressed), if_neg addressed,
        Nat.zero_add, ← elsewhere]
      exact h.alone runId before alone
  case total =>
    intro runIds nodup covered
    have ⟨listed, later⟩ := List.forall_mem_cons.mp covered
    have share : (runIds.map fun runId => if runId = timer.runId then ending.passes else 0).sum =
        ending.passes := by
      rw [List.sum_map_eq_nsmul_single timer.runId _ fun _ other _ => if_neg other,
        List.count_eq_one_of_mem nodup listed, one_nsmul, if_pos rfl]
    rw [List.sum_map_add, share, ← Nat.add_assoc]
    exact h.total runIds nodup later

theorem falls_apart (secluded : engine.Secluded now)
    (returns : ∀ pass ∈ engine.firePasses now timers store world, pass.Returns) (count : Nat) :
    ∃ total store' world' shares,
      engine.FallsApart now timers count store world total store' world' shares := by
  induction timers generalizing count store world
  case nil =>
    refine ⟨count, store, world, fun _ => 0, rfl, fun runId before alone => ⟨alone, rfl⟩, ?_⟩
    intro runIds _ _
    simp
  case cons timer rest ih =>
    rw [firePasses] at returns
    obtain ⟨returns, later⟩ := List.forall_mem_append.mp returns
    have returned := perform_returned returns
    rcases performed : engine.perform now (.resume timer.runId timer.resumeId none) store world with
      ⟨ending, store₁, world₁⟩
    simp only [performed] at returned later
    rw [if_pos returned] at later
    obtain ⟨total, store', world', shares, apart⟩ := ih later (count + ending.passes)
    exact ⟨total, store', world', _, apart.cons secluded performed returned⟩

theorem FallsApart.sweep_only {shares : String → Nat}
    (h : engine.FallsApart now (store.listDue now) 0 store world total store' world' shares)
    (runId : String) (alone : ω) :
    ∃ alone', engine.fireDueTimers now (.only runId (store.get? runId)) alone =
      (.fired (shares runId), .only runId (store'.get? runId), alone') := by
  have ⟨alone', fired⟩ := h.alone runId 0 alone
  rw [Nat.zero_add] at fired
  rw [fireDueTimers, Store.listDue_only]
  exact ⟨alone', fired⟩

theorem FallsApart.resumed {shares : String → Nat}
    (h : engine.FallsApart now timers count store world total store' world' shares)
    (runId : String) (alone : ω) :
    ∃ alone', engine.resumeAll now (timers.filter (·.runId = runId))
        (.only runId (store.get? runId)) alone =
      (shares runId, .only runId (store'.get? runId), alone') := by
  have ⟨alone', fired⟩ := h.alone runId 0 alone
  obtain ⟨passes, resumed, same⟩ := resumeAll_of_fired fired
  rw [Nat.zero_add, Nat.zero_add] at same
  exact ⟨alone', same ▸ resumed⟩

structure SweepsApart (engine : Engine ω) (now : Timestamp) (store : Store) (world : ω) (count : Nat)
    (store' : Store) (world' : ω) (shares : String → Nat) : Prop where
  fired : engine.fireDueTimers now store world = (.fired count, store', world')
  -- If a run is alone in the store, the sweep resumes those timers that are listed for it here.
  listed : ∀ runId, (Store.only runId (store.get? runId)).listDue now =
    (store.listDue now).filter (·.runId = runId)
  ordered : ∀ runId,
    ((store.listDue now).filter (·.runId = runId)).Pairwise (·.resumeId ≤ ·.resumeId)
  -- With no other run in the store, the resumes of those timers leave the run as the sweep does.
  resumed : ∀ runId (alone : ω), ∃ alone',
    engine.resumeAll now ((store.listDue now).filter (·.runId = runId))
        (.only runId (store.get? runId)) alone =
      (shares runId, .only runId (store'.get? runId), alone')
  alone : ∀ runId (alone : ω), ∃ alone',
    engine.fireDueTimers now (.only runId (store.get? runId)) alone =
      (.fired (shares runId), .only runId (store'.get? runId), alone')
  unlisted : ∀ runId, (∀ timer ∈ store.listDue now, timer.runId ≠ runId) →
    store'.get? runId = store.get? runId
  total : count = (store.keys.map shares).sum
  -- No matter what else is in a store, the run comes to the same.
  unaltered : ∀ runId (other : Store) (world₁ : ω), other.get? runId = store.get? runId →
    (∀ pass ∈ engine.firePasses now (other.listDue now) other world₁, pass.Returns) →
      (engine.fireDueTimers now other world₁).2.1.get? runId = store'.get? runId

-- If handlers are secluded, each resume of a sweep does to its run what it does when there is no
-- other run, so that the sweep falls apart into sweeps of the single runs. A run that fails, that
-- cannot be driven or whose timers are gone when their turn comes is no matter to the others.
theorem sweeps_apart (secluded : engine.Secluded now)
    (returns : ∀ pass ∈ engine.firePasses now (store.listDue now) store world, pass.Returns) :
    ∃ count store' world' shares,
      engine.SweepsApart now store world count store' world' shares := by
  have ⟨count, store', world', shares, apart⟩ := falls_apart secluded returns 0
  refine ⟨count, store', world', shares, {
    fired     := apart.fired
    listed    := fun _ => Store.listDue_only
    ordered   := fun _ => Store.listDue_ordered
    resumed   := apart.resumed
    alone     := apart.sweep_only
    unlisted  := fun _ => fire_isolated apart.fired
    total     := ?total
    unaltered := ?unaltered
  }⟩
  case total =>
    rw [apart.total store.keys store.nodup_keys, Nat.zero_add]
    intro timer listed
    have ⟨run, stored, _⟩ := Store.mem_listDue.mp listed
    exact List.mem_map.mpr ⟨_, Dict.mem_entries_iff.mpr stored, rfl⟩
  case unaltered =>
    intro runId other world₁ same returns'
    have ⟨count₁, store₁, world₂, shares₁, apart'⟩ := falls_apart secluded returns' 0
    have ⟨_, swept⟩ := apart.sweep_only runId world
    have ⟨_, swept'⟩ := apart'.sweep_only runId world
    rw [same, swept] at swept'
    have left : Store.only runId (store'.get? runId) = .only runId (store₁.get? runId) :=
      congrArg (·.2.1) swept'
    have run := congrArg (fun store : Store => store.get? runId) left
    simp only [Store.get?_only] at run
    rw [fireDueTimers, apart'.fired, run]

namespace Breakfast

def boil : HandlerM Nat StepOutcome := do
  let boiling ← HandlerM.waitMillis "boil" 300000
  let resting ← HandlerM.waitMillis "rest" 360000
  match boiling <|> resting with
  | some entry => return .suspend entry
  | none =>
    let _ ← HandlerM.action "serve" (fun _ => true) fun served => (.returned .null, served + 1)
    return .done

def roast : HandlerM Nat StepOutcome := do
  match ← HandlerM.waitMillis "roast" 120000 with
  | some entry => return .suspend entry
  | none =>
    let _ ← HandlerM.action "serve" (fun _ => true) fun served => (.failed "burnt", served)
    return .done

def kitchen : Engine Nat :=
  ⟨.ofPairs [
    ("egg", ⟨"egg", "boil", .null, .ofPairs [("boil", boil)]⟩),
    ("toast", ⟨"toast", "roast", .null, .ofPairs [("roast", roast)]⟩)], .standard⟩

def ordered (workflowType step : String) (timers : List (String × Int)) : Run :=
  { Run.create workflowType step with
    status  := .suspended
    pending := timers.map fun (key, deadline) => .timer (resumeId step key) (.clamp deadline) false }

def table : Store :=
  .ofPairs [
    ("coffee", ordered "coffee" "brew" [("drip", 60000)]),
    ("egg",    ordered "egg" "boil" [("boil", 300000), ("rest", 360000)]),
    ("second", ordered "egg" "boil" [("boil", 900000), ("rest", 960000)]),
    ("toast",  ordered "toast" "roast" [("roast", 120000)])]

def eight : Timestamp := .clamp 480000

def due : List DueTimer :=
  [⟨"coffee", "brew:drip"⟩, ⟨"egg", "boil:boil"⟩, ⟨"egg", "boil:rest"⟩, ⟨"toast", "roast:roast"⟩]

theorem listDue_table : table.listDue eight = due := by
  have among : Store.dueAmong eight table.entries = due := by decide +kernel
  rw [Store.listDue, among]
  exact List.mergeSort_of_pairwise (by decide +kernel)

theorem secluded_boil {now : Timestamp} : boil.Secluded now := by
  refine HandlerM.secluded_bind HandlerM.secluded_waitMillis fun boiling => ?_
  refine HandlerM.secluded_bind HandlerM.secluded_waitMillis fun resting => ?_
  cases boiling <|> resting
  case some => exact HandlerM.secluded_pure
  case none =>
    refine HandlerM.secluded_bind (HandlerM.secluded_action fun _ _ => rfl) fun _ => ?_
    exact HandlerM.secluded_pure

theorem secluded_roast {now : Timestamp} : roast.Secluded now := by
  refine HandlerM.secluded_bind HandlerM.secluded_waitMillis fun roasting => ?_
  cases roasting
  case some => exact HandlerM.secluded_pure
  case none =>
    refine HandlerM.secluded_bind (HandlerM.secluded_action fun _ _ => rfl) fun _ => ?_
    exact HandlerM.secluded_pure

theorem secluded_kitchen : kitchen.Secluded eight := by
  refine secluded_ofPairs (List.forall_mem_cons.mpr ⟨?_, List.forall_mem_singleton.mpr ?_⟩)
  · exact Workflow.secluded_ofPairs (List.forall_mem_singleton.mpr secluded_boil)
  · exact Workflow.secluded_ofPairs (List.forall_mem_singleton.mpr secluded_roast)

theorem breakfast_served :
    table.listDue eight = due ∧ kitchen.Secluded eight ∧
      (kitchen.firePasses eight due table 0).length = 2 ∧
      ∃ count store world shares, kitchen.SweepsApart eight table 0 count store world shares := by
  have returns : (kitchen.firePasses eight due table 0).all fun pass => decide pass.Returns := by
    decide +kernel
  refine ⟨listDue_table, secluded_kitchen, by decide +kernel, sweeps_apart secluded_kitchen ?_⟩
  intro pass hm
  exact of_decide_eq_true (List.all_eq_true.mp returns pass (listDue_table ▸ hm))

end Breakfast

end Engine

end DurableWorkflow
