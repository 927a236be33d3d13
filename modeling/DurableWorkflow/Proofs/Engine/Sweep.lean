import DurableWorkflow.Proofs.Engine.Lifecycle
import DurableWorkflow.Proofs.Run.Timer

namespace DurableWorkflow

theorem Store.mem_listDue {store : Store} {now : Timestamp} {timer : DueTimer} :
    timer ∈ store.listDue now ↔
      ∃ run, store.get? timer.runId = some run ∧ timer.resumeId ∈ run.dueTimers now := by
  simp only [listDue, List.mem_mergeSort, dueAmong, List.mem_flatMap, List.mem_map]
  constructor
  case mp =>
    rintro ⟨⟨runId, run⟩, stored, id, due, rfl⟩
    exact ⟨run, Dict.mem_entries_iff.mp stored, due⟩
  case mpr =>
    rintro ⟨run, stored, due⟩
    exact ⟨(timer.runId, run), Dict.mem_entries_iff.mpr stored, timer.resumeId, due, rfl⟩

def Call.Fresh : Call → Prop
  | .run _ initial                    => initial.pending = []
  | .resume .. | .retry _ | .cancel _ => True

namespace Engine

variable {ω : Type} {engine : Engine ω} {now : Timestamp} {call : Call} {loaded staged : Option Run}
  {run : Run} {runId id : String} {rest timers : List DueTimer} {timer : DueTimer}
  {ending : CallEnd} {store : Store} {world world' : ω}

def Distinct (loaded : Option Run) : Prop :=
  ∀ run, loaded = some run → run.Distinct

theorem keeps_distinct (fresh : call.Fresh) (engine : Engine ω) : engine.Keeps Distinct call := by
  intro now loaded world distinct
  rcases work : engine.work now call loaded world with ⟨ending, _ | staged, world'⟩
  case none => exact distinct
  case some =>
    rintro _ ⟨⟩
    have ⟨first, origin, trail⟩ := work_trail work
    refine trail.distinct ?_
    cases call
    case run runId initial =>
      cases origin
      have none : (engine.opened runId initial).pending = [] := by
        rw [opened, Run.keepAuditLog]
        split <;> exact fresh
      rw [Run.Distinct, none]
      exact List.nodup_nil
    all_goals exact distinct first origin

-- What is known of a run while some timers are still to be resumed. The list was made before the
-- first pass, while the passes may resolve, drop and renew the timers that are still ahead. What
-- carries a sweep to its end is that as long as a run has due timers, all of them are ahead.
inductive Covered (engine : Engine ω) (now : Timestamp) (timers : List DueTimer) (runId : String) :
    Option Run → Prop
  | absent : Covered engine now timers runId none
  | closed {run : Run} (closed : run.status.isClosed) : Covered engine now timers runId (some run)
  | apart {run : Run} (idle : run.dueTimers now = [])
      (others : ∀ timer ∈ timers, timer.runId ≠ runId) : Covered engine now timers runId (some run)
  | ahead {run : Run} {workflow : Workflow ω} (distinct : run.Distinct)
      (known  : engine.workflow run.workflowType = .ok workflow)
      (listed : ∀ id ∈ run.dueIds now, ⟨runId, id⟩ ∈ timers) :
      Covered engine now timers runId (some run)

namespace Covered

theorem tail (h : Covered engine now (timer :: rest) runId loaded) (hne : timer.runId ≠ runId) :
    Covered engine now rest runId loaded := by
  cases h with
  | absent            => exact .absent
  | closed closed     => exact .closed closed
  | apart idle others => exact .apart idle fun timer hm => others timer (List.mem_cons_of_mem _ hm)
  | ahead distinct known listed =>
    refine .ahead distinct known fun id due => ?_
    rcases List.mem_cons.mp (listed id due) with h | h
    · exact absurd (h ▸ rfl) hne
    · exact h

theorem dueTimers_eq_nil (h : Covered engine now [] runId (some run)) : run.dueTimers now = [] := by
  cases h with
  | closed closed =>
    rw [Run.dueTimers, if_neg]
    intro suspended
    rw [suspended] at closed
    cases closed
  | apart idle => exact idle
  | ahead _ _ listed =>
    have none : run.dueIds now = [] :=
      List.eq_nil_iff_forall_not_mem.mpr fun id due => List.not_mem_nil (listed id due)
    rw [Run.dueTimers]
    split
    case isTrue  => exact none
    case isFalse => rfl

end Covered

theorem not_due_of_refused {workflow : Workflow ω} {error : Error} {payload : Option Json}
    (live : run.status.isClosed = false)
    (known : engine.workflow run.workflowType = .ok workflow)
    (refused : engine.prepare now (.only runId (some run)) (.resume runId id payload) =
      .error error) :
    id ∉ run.dueIds now := by
  rcases resolved : run.resolve now id payload with ⟨_ | fired, after⟩
  case error => exact Run.not_mem_dueIds_of_missing resolved
  case ok =>
    rw [← (Run.resolve_served resolved).status] at live
    have granted : engine.prepare now (.only runId (some run)) (.resume runId id payload) = _ :=
      prepare_only_eq_ok_iff.mpr (.resume rfl known resolved live)
    rw [granted] at refused
    cases refused

structure Resumed (now : Timestamp) (id : String) (run last : Run) : Prop where
  distinct     : last.Distinct
  workflowType : last.workflowType = run.workflowType
  due          : ∀ id' ∈ last.dueIds now, id' ∈ run.dueIds now ∧ id' ≠ id

theorem resumed_of_pass {workflow : Workflow ω} {budget : Budget} {after last : Run}
    {payload : Option Json} {fired : Bool} {result : PassEnd} (distinct : run.Distinct)
    (resolved : run.resolve now id payload = (.ok fired, after))
    (pass : workflow.execute now budget after world = (result, last, world')) :
    Resumed now id run last := by
  have trail := workflow.passTrail now budget after world
  rw [pass] at trail
  have opened := Run.calmer_resolve resolved
  have passed := trail.calmer fun _ => Workflow.time_of_mem_pass
  refine {
    distinct     := passed.distinct (opened.distinct distinct)
    workflowType := trail.workflowType.trans (Run.resolve_served resolved).workflowType
    due          := fun id' due => ?_
  }
  have due := passed.due due
  refine ⟨opened.due due, ?_⟩
  rintro rfl
  exact Run.not_mem_dueIds_of_resolve distinct resolved due

theorem resumed_of_work {workflow : Workflow ω} {payload : Option Json} (distinct : run.Distinct)
    (known : engine.workflow run.workflowType = .ok workflow) (live : run.status.isClosed = false)
    (work : engine.work now (.resume runId id payload) (some run) world = (ending, staged, world'))
    (returned : ending.returned) :
    ∃ last, staged.or (some run) = some last ∧ Resumed now id run last := by
  cases work_eq_iff.mp work with
  | refused refused =>
    have absent := not_due_of_refused live known refused
    exact ⟨run, rfl, distinct, rfl, fun id' due => ⟨due, fun h => absent (h ▸ due)⟩⟩
  | settled granted | kept granted => cases granted
  | @driven _ _ last result _ granted pass =>
    cases granted with
    | resume stored _ resolved =>
      cases stored
      have resumed := resumed_of_pass distinct resolved pass
      cases result <;> first | exact ⟨last, rfl, resumed⟩ | cases returned

-- When a timer was resumed, all that is due of its run is ahead still.
theorem Covered.resume (h : Covered engine now (⟨runId, id⟩ :: rest) runId loaded)
    (work : engine.work now (.resume runId id none) loaded world = (ending, staged, world'))
    (returned : ending.returned) : Covered engine now rest runId (staged.or loaded) := by
  cases h with
  | absent =>
    cases work_eq_iff.mp work with
    | refused => exact .absent
    | settled granted | kept granted => cases granted
    | driven granted => cases granted with | resume stored => cases stored
  | closed closed =>
    cases staged_of_closed closed work
    exact .closed closed
  | apart _ others => exact absurd rfl (others _ List.mem_cons_self)
  | @ahead run workflow distinct known listed =>
    cases live : run.status.isClosed
    case true =>
      cases staged_of_closed live work
      exact .closed live
    case false =>
      have ⟨last, left, resumed⟩ := resumed_of_work distinct known live work returned
      rw [left]
      refine .ahead resumed.distinct (resumed.workflowType ▸ known) fun id' due => ?_
      have ⟨due, hne⟩ := resumed.due id' due
      rcases List.mem_cons.mp (listed id' due) with h | h
      · exact absurd (DueTimer.mk.inj h).2 hne
      · exact h

-- A sweep whose passes all return comes to its end, with no timer ahead any more.
theorem fire_covered (count : Nat)
    (h : ∀ runId, Covered engine now timers runId (store.get? runId))
    (returns : ∀ pass ∈ engine.firePasses now timers store world, pass.Returns) :
    ∃ count' store' world',
      engine.fire now timers count store world = (.fired count', store', world') ∧
        ∀ runId, Covered engine now [] runId (store'.get? runId) := by
  induction timers generalizing count store world
  case nil => exact ⟨count, store, world, rfl, h⟩
  case cons timer rest ih =>
    rw [firePasses] at returns
    obtain ⟨returns, later⟩ := List.forall_mem_append.mp returns
    have returned := perform_returned returns
    rw [fire]
    rcases performed : engine.perform now (.resume timer.runId timer.resumeId none) store world with
      ⟨ending, store₁, world₁⟩
    simp only [performed] at returned later
    rw [if_pos returned] at later
    have covered (runId : String) : Covered engine now rest runId (store₁.get? runId) := by
      obtain ⟨staged, work, rfl⟩ := perform_eq_iff.mp performed
      by_cases addressed : timer.runId = runId
      case pos =>
        subst addressed
        rw [Call.runId, Store.get?_commit_self]
        exact (h timer.runId).resume work returned
      case neg =>
        rw [Call.runId, Store.get?_commit_of_ne addressed]
        exact (h runId).tail addressed
    cases ending
    case panicked   => cases returned
    case unfinished => cases returned
    all_goals exact ih _ covered later

theorem covered_listDue (distinct : ∀ runId, Distinct (store.get? runId))
    (known : ∀ runId run, store.get? runId = some run → run.dueTimers now ≠ [] →
      ∃ workflow, engine.workflow run.workflowType = .ok workflow) (runId : String) :
    Covered engine now (store.listDue now) runId (store.get? runId) := by
  rcases stored : store.get? runId with _ | run
  case none => exact .absent
  case some =>
    by_cases idle : run.dueTimers now = []
    case pos =>
      refine .apart idle fun timer hm => ?_
      rintro rfl
      have ⟨other, found, due⟩ := Store.mem_listDue.mp hm
      cases stored.symm.trans found
      rw [idle] at due
      cases due
    case neg =>
      have ⟨workflow, known⟩ := known runId run stored idle
      refine .ahead (distinct runId run stored) known fun id due => ?_
      refine Store.mem_listDue.mpr ⟨run, stored, ?_⟩
      rw [Run.dueTimers] at idle ⊢
      split at idle
      case isTrue suspended => rwa [if_pos suspended]
      case isFalse          => exact absurd rfl idle

theorem listDue_eq_nil (h : ∀ runId, Covered engine now [] runId (store.get? runId)) :
    store.listDue now = [] := by
  refine List.eq_nil_iff_forall_not_mem.mpr fun timer hm => ?_
  have ⟨run, stored, due⟩ := Store.mem_listDue.mp hm
  have covered := h timer.runId
  rw [stored] at covered
  rw [covered.dueTimers_eq_nil] at due
  cases due

structure SweepsAll (engine : Engine ω) (s : State ω) (count : Nat) (store : Store) (world : ω) :
    Prop where
  fired : engine.fireDueTimers s.now s.store s.world = (.fired count, store, world)
  none  : store.listDue s.now = []
  idle  : ∀ (other : Engine ω) (world : ω),
    other.fireDueTimers s.now store world = (.fired 0, store, world) ∧
      other.firePasses s.now (store.listDue s.now) store world = []

theorem State.sweep_complete {first s : State ω} {acts : List (Act ω)}
    (empty : first.store = .empty)
    (fresh : ∀ act ∈ acts, ∀ other call, act.Makes other call → call.Fresh)
    (reached : acts.foldl State.act first = s)
    (known : ∀ runId run, s.store.get? runId = some run → run.dueTimers s.now ≠ [] →
      ∃ workflow, engine.workflow run.workflowType = .ok workflow)
    (returns : ∀ pass ∈ s.passes (.sweep engine), pass.Returns) :
    ∃ count store world, engine.SweepsAll s count store world := by
  have distinct (runId : String) : Distinct (s.store.get? runId) := by
    rw [← reached]
    refine acts_keep (fun act hm other call makes _ => ?_) ?_
    · exact keeps_distinct (fresh act hm other call makes) other
    rw [empty]
    exact nofun
  have ⟨count, store, world, fired, covered⟩ :=
    fire_covered 0 (covered_listDue distinct known) returns
  have none : store.listDue s.now = [] := listDue_eq_nil covered
  refine ⟨count, store, world, fired, none, fun other world => ?_⟩
  rw [fireDueTimers, none]
  exact ⟨rfl, rfl⟩

namespace Tea

def brew : HandlerM Unit StepOutcome := do
  let infusing ← HandlerM.waitMillis "infuse" 180000
  let resting ← HandlerM.waitMillis "rest" 240000
  match infusing <|> resting with
  | some entry => return .suspend entry
  | none       => return .done

def kitchen : Engine Unit :=
  ⟨.ofPairs [("tea", ⟨"tea", "brew", .null, .ofPairs [("brew", brew)]⟩)], .standard⟩

def acts : List (Act Unit) :=
  [.call kitchen (.run "t" (Run.create "tea" "brew")), .clock ⟨300000000000, by decide, by decide⟩]

def opening : State Unit :=
  ⟨.empty, (), .epoch⟩

def served : State Unit :=
  acts.foldl State.act opening

def due : List DueTimer :=
  [⟨"t", "brew:infuse"⟩, ⟨"t", "brew:rest"⟩]

theorem listDue_served : served.store.listDue served.now = due := by
  have among : Store.dueAmong served.now served.store.entries = due := by decide +kernel
  rw [Store.listDue, among]
  exact List.mergeSort_of_pairwise (by decide +kernel)

-- Both timers are due at once, and the pass that one of them brings about takes care of the other.
theorem both_due :
    served.store.listDue served.now = due ∧
      ∃ count store world, kitchen.SweepsAll served count store world := by
  have kinds : ∀ entry ∈ served.store.entries, entry.2.workflowType = "tea" := by decide +kernel
  have returns : (kitchen.firePasses served.now due served.store served.world).all
      fun pass => decide pass.Returns := by decide +kernel
  have reached : acts.foldl State.act opening = served := rfl
  refine ⟨listDue_served, State.sweep_complete rfl ?fresh reached ?known ?returns⟩
  case fresh =>
    intro act hm other call makes
    rcases List.mem_cons.mp hm with rfl | hm
    · cases makes
      rfl
    · rcases List.mem_singleton.mp hm with rfl
      cases makes
  case known =>
    intro runId run stored _
    rw [kinds _ (Dict.mem_entries_iff.mpr stored)]
    exact ⟨_, rfl⟩
  case returns =>
    intro pass hm
    rw [State.passes] at hm
    exact of_decide_eq_true (List.all_eq_true.mp returns pass (listDue_served ▸ hm))

end Tea

end Engine

end DurableWorkflow
