import DurableWorkflow.Proofs.Engine.Overlap
import DurableWorkflow.Proofs.Flow.Still

namespace DurableWorkflow

theorem Store.commit_of_get? {store : Store} {runId : String} {run : Run}
    (stored : store.get? runId = some run) : store.commit runId (some run) = store := by
  refine Dict.ext_get? fun key => ?_
  rw [commit, Dict.get?_insert]
  split
  case isTrue same => rw [← same, stored]
  case isFalse     => rfl

namespace Engine

variable {ω : Type} {engine : Engine ω} {flow : Flow} {workflow : Workflow ω} {runId id : String}
  {now deadline : Timestamp} {payload : Option Json} {run : Run} {store store' : Store}
  {world world' : ω} {ending : CallEnd} {staged : Option Run} {call : Call} {walk : Walk}

structure Offers (engine : Engine ω) (flow : Flow) (workflow : Workflow ω) : Prop where
  compiled   : ∃ tasks, Workflow.ofFlow flow tasks = .returned (.ok workflow)
  registered : engine.workflows.get? flow.id = some workflow
  limit      : engine.config.maxSteps ≠ some 0

namespace Offers

variable (offers : engine.Offers flow workflow)

include offers

theorem compiles : ∃ tasks, flow.Compiles tasks workflow :=
  offers.compiled.imp fun _ => Workflow.ofFlow_compiles

theorem known : engine.workflow flow.id = .ok workflow := by
  rw [Engine.workflow, offers.registered]

section Early

variable (rests : walk.AtRest flow) (awaits : walk.awaits id) (early : walk.Early now deadline)

include rests awaits early

theorem perform_early (rounds : engine.config.budget.rounds ≠ 0)
    (stored : store.get? runId = some (walk.snapshot flow runId)) :
    engine.perform now (.resume runId id payload) store world =
      (.passed (.needResume runId ((Wait.timer deadline false).entry walk.position)), store,
        world) := by
  have ⟨tasks, compiles⟩ := offers.compiles
  have on (other : Walk) (hl : some walk = some other) : other.On flow := by
    cases hl
    exact rests.on
  have work := compiles.work_eq offers.registered runId now (.resume id payload) world on
  rw [Flow.undertake_early compiles.wellFormed rounds rests awaits early] at work
  refine perform_eq_iff.mpr ⟨_, ?_, (Store.commit_of_get? stored).symm⟩
  rw [Call.runId, stored]
  exact work

theorem invocations_early :
    ∀ exchange ∈ engine.exchanges now (.resume runId id payload)
      (some (walk.snapshot flow runId)) world, exchange.invocations = [] := by
  have ⟨tasks, compiles⟩ := offers.compiles
  have ⟨resolved, hr⟩ := Flow.resolve_snapshot flow runId now payload awaits
  rw [early.resolve] at hr
  have live : walk.status.isClosed = false := by
    rw [(rests.awaits_iff.mp awaits).1]
    rfl
  have granted : engine.Grants now (some _) (.resume runId id payload) _ :=
    .resume rfl offers.known hr live
  intro exchange hm
  rw [exchanges_of_drive granted] at hm
  rcases List.mem_append.mp hm with hm | hm
  · cases List.mem_singleton.mp hm
    exact Exchange.invocations_eq_nil rfl
  · exact compiles.passExchanges_early rests.toProper early exchange hm

end Early

end Offers

theorem Rests.pending_length (rests : Rests flow runId run) : run.pending.length ≤ 1 := by
  obtain ⟨walk, rfl, _⟩ := rests
  rw [Walk.snapshot, List.length_map]
  cases walk.wait <;> simp

-- A run of a flow, between the calls of an engine that offers the flow.
structure Houses (engine : Engine ω) (flow : Flow) (runId : String) (run : Run) : Prop where
  offered : ∃ workflow, engine.Offers flow workflow
  rests   : Rests flow runId run

structure ComesToNothing (engine : Engine ω) (now : Timestamp) (call : Call) (store : Store)
    (world : ω) : Prop where
  same  : ∃ ending, ending.returned ∧ engine.perform now call store world = (ending, store, world)
  tasks : ∀ exchange ∈ engine.exchanges now call (store.get? call.runId) world,
    exchange.invocations = []

namespace Houses

variable (h : engine.Houses flow runId run)

include h

theorem distinct : run.Distinct := by
  have short := h.rests.pending_length
  rcases pending : run.pending with _ | ⟨entry, _ | _⟩ <;> rw [pending] at short <;>
    simp [Run.Distinct, pending] at short ⊢

theorem dueTimers_length : (run.dueTimers now).length ≤ 1 := by
  rw [Run.dueTimers]
  split
  case isTrue =>
    rw [List.length_map]
    exact (List.length_filter_le _ _).trans h.rests.pending_length
  case isFalse => exact Nat.zero_le 1

theorem due_unique {id' : String} (due : id ∈ run.dueIds now) (due' : id' ∈ run.dueIds now) :
    id' = id := by
  obtain ⟨entry, hm, _, rfl⟩ := Run.mem_dueIds.mp due
  obtain ⟨entry', hm', _, rfl⟩ := Run.mem_dueIds.mp due'
  have short := h.rests.pending_length
  rcases pending : run.pending with _ | ⟨only, _ | _⟩ <;> rw [pending] at short hm hm'
  case nil       => cases hm
  case cons.nil  => rw [List.mem_singleton.mp hm, List.mem_singleton.mp hm']
  case cons.cons => simp at short

theorem names {fired : Bool} (hm : .timer id deadline fired ∈ run.pending) :
    flow.NamesTimer id := by
  obtain ⟨walk, rfl, rests⟩ := h.rests
  exact rests.names hm

theorem names_of_due (due : id ∈ run.dueIds now) : flow.NamesTimer id := by
  have ⟨entry, hm, due, hid⟩ := Run.mem_dueIds.mp due
  cases entry
  case timer => exact hid ▸ h.names hm
  case event => cases due

theorem perform_early {fired : Bool} (rounds : engine.config.budget.rounds ≠ 0)
    (stored : store.get? runId = some run) (suspended : run.status = .suspended)
    (hm : .timer id deadline fired ∈ run.pending) (ahead : now.millis < deadline.millis) :
    engine.perform now (.resume runId id payload) store world =
      (.passed (.needResume runId (.timer id deadline fired)), store, world) := by
  obtain ⟨⟨workflow, offers⟩, walk, rfl, rests⟩ := h
  have ⟨wait, hw, he⟩ := List.mem_map.mp hm
  have waits := Option.mem_toList.mp hw
  cases wait <;> cases he
  have ⟨_, waits', unresolved⟩ := rests.parked suspended
  cases waits.symm.trans waits'
  cases unresolved
  exact offers.perform_early rests (rests.awaits_iff.mpr ⟨suspended, rfl⟩)
    ⟨waits, Int.not_le.mpr ahead⟩ rounds stored

theorem comesToNothing (rounds : engine.config.budget.rounds ≠ 0)
    (stored : store.get? runId = some run) (named : flow.NamesTimer id)
    (idle : id ∉ run.dueIds now) :
    engine.ComesToNothing now (.resume runId id payload) store world := by
  obtain ⟨⟨workflow, offers⟩, walk, rfl, rests⟩ := h
  obtain ⟨tasks, compiles⟩ := offers.compiles
  cases awaits : walk.awaits id
  case false =>
    have missing := Flow.resolve_snapshot_error flow runId now payload awaits
    have refused : engine.prepare now (.only runId (some (walk.snapshot flow runId)))
        (.resume runId id payload) = .error (.unknownResume runId id) := by
      simp [prepare, stored_only, offers.known, missing, bind, Except.bind]
    have work : engine.work now (.resume runId id payload) _ world = _ := work_of_refused refused
    refine ⟨⟨.refused (.unknownResume runId id), rfl, perform_eq_iff.mpr ⟨none, ?_, rfl⟩⟩, ?_⟩
    · rw [Call.runId, stored]
      exact work
    · rw [Call.runId, stored, exchanges_eq_nil work rfl]
      exact List.forall_mem_nil _
  case true =>
    obtain ⟨deadline, early⟩ := rests.exists_early compiles.wellFormed named awaits idle
    refine ⟨⟨_, rfl, offers.perform_early rests awaits early rounds stored⟩, ?_⟩
    rw [Call.runId, stored]
    exact offers.invocations_early rests awaits early

theorem resume (stored : store.get? runId = some run)
    (performed : engine.perform now (.resume runId id payload) store world =
      (ending, store', world')) (returned : ending.returned) :
    ∃ last, store'.get? runId = some last ∧ engine.Houses flow runId last ∧
      Resumed now id run last := by
  obtain ⟨staged, work, rfl⟩ := perform_eq_iff.mp performed
  rw [Call.runId, Store.get?_commit_self, stored]
  rw [Call.runId, stored] at work
  have distinct : run.Distinct := h.distinct
  obtain ⟨⟨workflow, offers⟩, rests⟩ := h
  obtain ⟨tasks, compiles⟩ := offers.compiles
  obtain ⟨last, left, resumed⟩ : ∃ last, staged.or (some run) = some last ∧
      Resumed now id run last := by
    cases live : run.status.isClosed
    case true =>
      obtain ⟨walk, rfl, atRest⟩ := rests
      have idle : walk.wait = none := atRest.idle fun suspended => by
        rw [Walk.snapshot_status, suspended] at live
        cases live
      refine ⟨_, by rw [staged_of_closed live work]; rfl, distinct, rfl, fun id' due => ?_⟩
      simp [Run.dueIds, Walk.snapshot, idle] at due
    case false =>
      have known : engine.workflow run.workflowType = .ok workflow := by
        obtain ⟨walk, rfl, _⟩ := rests
        exact offers.known
      exact resumed_of_work distinct known live work returned
  refine ⟨last, left, ⟨⟨workflow, offers⟩, ?_⟩, resumed⟩
  cases staged <;> cases left
  case none => exact rests
  case some => exact work_rests compiles offers.registered offers.limit rfl rests work

end Houses

def Act.Serves (flow : Flow) (runId : String) (act : Act ω) : Prop :=
  ∀ engine call, act.Makes engine call → call.runId = runId →
    ∃ workflow, engine.Offers flow workflow ∧ call.Instantiates workflow

structure Runs (engine : Engine ω) (flow : Flow) (runId : String) (acts : List (Act ω)) : Prop where
  offered : ∃ workflow, engine.Offers flow workflow
  served  : ∀ act ∈ acts, act.Serves flow runId

theorem Offers.keeps_rests (offers : engine.Offers flow workflow)
    (made : call.Instantiates workflow) :
    engine.Keeps (fun loaded => ∀ run, loaded = some run → Rests flow call.runId run) call := by
  intro now loaded world rests
  have ⟨tasks, compiles⟩ := offers.compiles
  rcases work : engine.work now call loaded world with ⟨ending, _ | last, world'⟩
  case none => exact rests
  case some =>
    rintro _ ⟨⟩
    cases loaded
    case none =>
      have ⟨errand, same⟩ := made.exists_errand
      rw [same] at work
      have new : ∀ walk : Walk, none = some walk → walk.AtRest flow := by rintro _ ⟨⟩
      exact errand_rests compiles offers.registered offers.limit errand none new work
    case some run =>
      exact work_rests compiles offers.registered offers.limit rfl (rests run rfl) work

def AllHoused (engine : Engine ω) (store : Store) : Prop :=
  ∀ runId run, store.get? runId = some run → ∃ flow, engine.Houses flow runId run

def Spent (engine : Engine ω) (now : Timestamp) (store : Store) (timer : DueTimer) : Prop :=
  ∃ flow run, store.get? timer.runId = some run ∧ engine.Houses flow timer.runId run ∧
    flow.NamesTimer timer.resumeId ∧ timer.resumeId ∉ run.dueIds now

variable {timer : DueTimer} {rest timers : List DueTimer} {sweeps : List (List DueTimer)}

theorem AllHoused.singleDue (h : engine.AllHoused store) : store.SingleDue now := by
  intro runId run stored
  have ⟨flow, houses⟩ := h runId run stored
  exact houses.dueTimers_length

section Resume

variable (performed : engine.perform now (.resume runId id payload) store world =
  (ending, store', world')) (returned : ending.returned)

include performed returned

theorem AllHoused.resume (h : engine.AllHoused store) (stored : store.get? runId = some run) :
    engine.AllHoused store' := by
  intro other last found
  by_cases addressed : runId = other
  case pos =>
    subst addressed
    have ⟨flow, houses⟩ := h runId run stored
    have ⟨_, stored', houses, _⟩ := houses.resume stored performed returned
    cases stored'.symm.trans found
    exact ⟨flow, houses⟩
  case neg => exact h other last (perform_elsewhere performed addressed ▸ found)

theorem Spent.resume (h : engine.Spent now store timer) : engine.Spent now store' timer := by
  obtain ⟨flow, run, stored, houses, named, idle⟩ := h
  by_cases addressed : runId = timer.runId
  case pos =>
    subst addressed
    have ⟨last, stored', houses, resumed⟩ := houses.resume stored performed returned
    exact ⟨flow, last, stored', houses, named, fun due => idle (resumed.due _ due).1⟩
  case neg =>
    exact ⟨flow, run, (perform_elsewhere performed addressed).trans stored, houses, named, idle⟩

end Resume

-- What a resume of the first of the due timers makes of the store.
structure Advance (engine : Engine ω) (now : Timestamp) (timer : DueTimer) (rest : List DueTimer)
    (store store' : Store) : Prop where
  housed : engine.AllHoused store'
  listed : store'.listDue now = rest
  spent  : engine.Spent now store' timer
  kept   : ∀ other, engine.Spent now store other → engine.Spent now store' other

theorem AllHoused.advance (h : engine.AllHoused store) (listed : store.listDue now = timer :: rest)
    (performed : engine.perform now (.resume timer.runId timer.resumeId none) store world =
      (ending, store', world')) (returned : ending.returned) :
    engine.Advance now timer rest store store' := by
  have ⟨run, stored, due⟩ := Store.mem_listDue.mp (listed ▸ List.mem_cons_self)
  have due := Run.dueTimers_subset due
  have ⟨flow, houses⟩ := h timer.runId run stored
  have ⟨last, stored', houses', resumed⟩ := houses.resume stored performed returned
  have housed : engine.AllHoused store' := h.resume performed returned stored
  have gone (other : Run) (found : store'.get? timer.runId = some other) :
      other.dueTimers now = [] := by
    cases stored'.symm.trans found
    refine List.eq_nil_iff_forall_not_mem.mpr fun id due' => ?_
    have ⟨due', hne⟩ := resumed.due id (Run.dueTimers_subset due')
    exact hne (houses.due_unique due due')
  exact {
    housed
    listed     := Store.listDue_tail h.singleDue housed.singleDue listed
      (fun _ => perform_elsewhere performed) gone
    spent      := ⟨flow, last, stored', houses', houses.names_of_due due,
      fun due => (resumed.due _ due).2 rfl⟩
    kept other := Spent.resume performed returned
  }

-- A sweep is still to resume what is due, after timers that another sweep was faster with.
def Behind (engine : Engine ω) (now : Timestamp) (store : Store) (timers : List DueTimer) : Prop :=
  ∃ spent, timers = spent ++ store.listDue now ∧ ∀ timer ∈ spent, engine.Spent now store timer

theorem Advance.behind (h : engine.Advance now timer rest store store')
    (listed : store.listDue now = timer :: rest) (behind : engine.Behind now store timers) :
    engine.Behind now store' timers := by
  obtain ⟨spent, rfl, stale⟩ := behind
  refine ⟨spent ++ [timer], ?_, List.forall_mem_append.mpr ⟨fun other hm => ?_, ?_⟩⟩
  · rw [listed, h.listed, List.append_assoc, List.singleton_append]
  · exact h.kept other (stale other hm)
  · exact List.forall_mem_singleton.mpr h.spent

-- How overlapping sweeps stand to a single one.
structure Abreast (engine : Engine ω) (now : Timestamp) (store : Store) (world : ω)
    (sweeps : List (List DueTimer)) (store' : Store) (world' : ω) : Prop where
  housed : engine.AllHoused store'
  behind : ∀ timers ∈ sweeps, engine.Behind now store' timers
  ahead  : ∃ count, engine.fireDueTimers now store world =
    engine.fire now (store'.listDue now) count store' world'

theorem Abreast.resume {earlier later : List (List DueTimer)} {store₁ store₂ : Store}
    {world₁ world₂ : ω} (rounds : engine.config.budget.rounds ≠ 0)
    (h : engine.Abreast now store world (earlier ++ (timer :: rest) :: later) store₁ world₁)
    (performed : engine.perform now (.resume timer.runId timer.resumeId none) store₁ world₁ =
      (ending, store₂, world₂)) (returned : ending.returned) :
    engine.Abreast now store world (earlier ++ rest :: later) store₂ world₂ := by
  have others (timers : List DueTimer) (hm : timers ∈ earlier ++ rest :: later) :
      timers = rest ∨ timers ∈ earlier ++ (timer :: rest) :: later := by
    simp only [List.mem_append, List.mem_cons] at hm ⊢
    tauto
  have ⟨spent, split, stale⟩ := h.behind (timer :: rest) (by simp)
  cases spent
  case nil =>
    have listed : store₁.listDue now = timer :: rest := split.symm
    have advance := h.housed.advance listed performed returned
    have ⟨count, ahead⟩ := h.ahead
    rw [listed] at ahead
    have fired := fire_cons performed returned rest count
    refine ⟨advance.housed, fun timers hm => ?_, count + ending.passes, ?_⟩
    · rcases others timers hm with rfl | hm
      · exact ⟨[], advance.listed.symm, List.forall_mem_nil _⟩
      · exact advance.behind listed (h.behind timers hm)
    · rw [ahead, fired, advance.listed]
  case cons =>
    obtain ⟨rfl, rfl⟩ := List.cons.inj split
    have ⟨flow, run, stored, houses, named, idle⟩ := stale _ List.mem_cons_self
    have nothing : engine.ComesToNothing now (.resume timer.runId timer.resumeId none) _ world₁ :=
      houses.comesToNothing rounds stored named idle
    have ⟨_, _, same⟩ := nothing.same
    cases performed.symm.trans same
    refine ⟨h.housed, fun timers hm => ?_, h.ahead⟩
    rcases others timers hm with rfl | hm
    · exact ⟨_, rfl, fun other hm => stale other (List.mem_cons_of_mem _ hm)⟩
    · exact h.behind timers hm

theorem Overlap.abreast (rounds : engine.config.budget.rounds ≠ 0)
    (housed : engine.AllHoused store)
    (h : engine.Overlap now store world sweeps store' world') :
    engine.Abreast now store world sweeps store' world' := by
  induction h
  case start => exact ⟨housed, nofun, 0, rfl⟩
  case begin ih =>
    refine { ih with behind := List.forall_mem_cons.mpr ⟨?_, ih.behind⟩ }
    exact ⟨[], rfl, List.forall_mem_nil _⟩
  case resume performed returned ih => exact ih.resume rounds performed returned

def SweepsOverlap (engine : Engine ω) (store : Store) : Prop :=
  ∀ now world sweeps store' world', engine.Overlap now store world sweeps store' world' →
    sweeps ≠ [] → (∀ timers ∈ sweeps, timers = []) →
      ∃ count, engine.fireDueTimers now store world = (.fired count, store', world')

theorem AllHoused.sweepsOverlap (rounds : engine.config.budget.rounds ≠ 0)
    (h : engine.AllHoused store) : engine.SweepsOverlap store := by
  intro now world sweeps store' world' overlap begun ended
  have abreast := overlap.abreast rounds h
  have ⟨timers, hm⟩ := List.exists_mem_of_ne_nil sweeps begun
  have ⟨spent, split, _⟩ := abreast.behind timers hm
  have none : store'.listDue now = [] :=
    (List.append_eq_nil_iff.mp (split.symm.trans (ended timers hm))).2
  have ⟨count, ahead⟩ := abreast.ahead
  rw [none] at ahead
  exact ⟨count, ahead⟩

structure TimersIdempotent (engine : Engine ω) (flow : Flow) (runId : String) (run : Run)
    (store : Store) : Prop where
  named    : ∀ id deadline fired, .timer id deadline fired ∈ run.pending → flow.NamesTimer id
  early    : ∀ now id deadline fired payload (world : ω), run.status = .suspended →
    .timer id deadline fired ∈ run.pending → now.millis < deadline.millis →
      engine.perform now (.resume runId id payload) store world =
        (.passed (.needResume runId (.timer id deadline fired)), store, world)
  repeated : ∀ now id payload (world : ω) ending store' world', flow.NamesTimer id →
    engine.perform now (.resume runId id payload) store world = (ending, store', world') →
      ending.returned → ∀ payload again,
        engine.ComesToNothing now (.resume runId id payload) store' again

theorem Houses.timersIdempotent (h : engine.Houses flow runId run)
    (rounds : engine.config.budget.rounds ≠ 0) (stored : store.get? runId = some run) :
    engine.TimersIdempotent flow runId run store where
  named _ _ _             := h.names
  early _ _ _ _ _ _       := h.perform_early rounds stored
  repeated _ _ _ _ _ _ _ named performed returned _ _ :=
    have ⟨_, stored', houses, resumed⟩ := h.resume stored performed returned
    houses.comesToNothing rounds stored' named fun due => (resumed.due _ due).2 rfl

theorem Runs.houses {first s : State ω} {acts : List (Act ω)} (h : engine.Runs flow runId acts)
    (new : first.store.get? runId = none) (reached : acts.foldl State.act first = s)
    (stored : s.store.get? runId = some run) : engine.Houses flow runId run := by
  refine ⟨h.offered, ?_⟩
  subst reached
  refine acts_keep (Q := fun loaded => ∀ run, loaded = some run → Rests flow runId run)
    (fun act hm other call makes addressed => ?_) ?_ run stored
  · have ⟨workflow, offers, made⟩ := h.served act hm other call makes addressed
    exact addressed ▸ offers.keeps_rests made
  · rw [new]
    rintro _ ⟨⟩

-- To resume a timer again, at the same reading of the clock, comes to nothing: whatever the first
-- resume has made of the run, no timer of it is due any more. So sweeps may overlap if all runs are
-- runs of flows.
theorem State.timers_idempotent {first s : State ω} {acts : List (Act ω)}
    (empty : first.store = .empty) (reached : acts.foldl State.act first = s)
    (rounds : engine.config.budget.rounds ≠ 0) :
    (∀ flow runId run, engine.Runs flow runId acts → s.store.get? runId = some run →
      engine.TimersIdempotent flow runId run s.store) ∧
    ((∀ runId run, s.store.get? runId = some run → ∃ flow, engine.Runs flow runId acts) →
      engine.SweepsOverlap s.store) := by
  have new (runId : String) : first.store.get? runId = none := by rw [empty]; rfl
  constructor
  · intro flow runId run runs stored
    exact (runs.houses (new runId) reached stored).timersIdempotent rounds stored
  · intro runs
    refine AllHoused.sweepsOverlap rounds fun runId run stored => ?_
    have ⟨flow, runs⟩ := runs runId run stored
    exact ⟨flow, runs.houses (new runId) reached stored⟩

end Engine

namespace Flow.Approval

open Engine

def again : List (Act Nat) :=
  [.call office (.run "r" { workflow.instantiate with state := .null }), .call office (.retry "r"),
    .clock (minute 12)]

def noon : State Nat :=
  again.foldl State.act morning

def pause : DueTimer :=
  ⟨"r", "pause:pause"⟩

theorem listDue_noon : noon.store.listDue noon.now = [pause] := by
  have among : Store.dueAmong noon.now noon.store.entries = [pause] := by decide +kernel
  rw [Store.listDue, among]
  exact List.mergeSort_singleton pause

theorem served_again : office.Runs flow "r" again := by
  refine ⟨⟨workflow, ⟨tasks, compiled⟩, rfl, nofun⟩, fun act hm other call makes _ => ?_⟩
  simp only [again, List.mem_cons, List.not_mem_nil, or_false] at hm
  rcases hm with rfl | rfl | rfl <;> cases makes
  case inl          => exact ⟨workflow, ⟨⟨tasks, compiled⟩, rfl, nofun⟩, .null, rfl⟩
  case inr.inl.call => exact ⟨workflow, ⟨⟨tasks, compiled⟩, rfl, nofun⟩, trivial⟩

theorem names_pause : flow.NamesTimer "pause:pause" :=
  ⟨⟨"pause", "", .resumeAfter "10 minutes", none⟩, by decide, "10 minutes", rfl, rfl⟩

def resumed : CallEnd × Store × Nat :=
  office.perform noon.now (.resume "r" "pause:pause" none) noon.store noon.world

theorem side_by_side {ending ending' : CallEnd} {store : Store} {world : Nat}
    (performed : resumed = (ending, store, world)) (returned : ending.returned)
    (same : office.perform noon.now (.resume "r" "pause:pause" none) store world =
      (ending', store, world)) (returned' : ending'.returned) :
    office.Overlap noon.now noon.store noon.world [[], []] store world := by
  have begun : office.Overlap noon.now noon.store noon.world _ noon.store noon.world :=
    .begin (.begin .start)
  rw [listDue_noon] at begun
  have first : office.Overlap noon.now noon.store noon.world ([] ++ [] :: [[pause]]) store world :=
    .resume (show office.Overlap _ _ _ ([] ++ [pause] :: [[pause]]) _ _ from begun) performed
      returned
  have second : office.Overlap noon.now noon.store noon.world ([[]] ++ [] :: []) store world :=
    .resume (show office.Overlap _ _ _ ([[]] ++ [pause] :: []) _ _ from first) same returned'
  exact second

-- The resume leads back to the pause, which is now to end at a later time. Of two sweeps that began
-- together, the second one finds this timer under the id that it was to resume.
theorem pause_again :
    morning.store = .empty ∧ again.foldl State.act morning = noon ∧
      office.config.budget.rounds ≠ 0 ∧ office.Runs flow "r" again ∧
      ∃ run, noon.store.get? "r" = some run ∧ office.TimersIdempotent flow "r" run noon.store ∧
        ∃ store world, office.Overlap noon.now noon.store noon.world [[], []] store world ∧
          (store.get? "r").map Run.pending =
            some [.timer "pause:pause" (minute 22).timestamp false] ∧
          ∃ count, office.fireDueTimers noon.now noon.store noon.world =
            (.fired count, store, world) := by
  have reached : again.foldl State.act morning = noon := rfl
  have rounds : office.config.budget.rounds ≠ 0 := by decide
  have ⟨idempotent, overlaps⟩ :=
    @State.timers_idempotent Nat office morning noon again rfl reached rounds
  have only : ∀ entry ∈ noon.store.entries, entry.1 = "r" := by decide +kernel
  have overlaps := overlaps fun runId run stored => by
    cases only (runId, run) (Dict.mem_entries_iff.mpr stored)
    exact ⟨flow, served_again⟩
  have there : (noon.store.get? "r").isSome := by decide +kernel
  have ⟨run, stored⟩ := Option.isSome_iff_exists.mp there
  have idempotent := idempotent flow "r" run served_again stored
  have first : resumed.1.returned ∧ (resumed.2.1.get? "r").map Run.pending =
      some [.timer "pause:pause" (minute 22).timestamp false] := by decide +kernel
  rcases performed : resumed with ⟨ending, store, world⟩
  rw [performed] at first
  have second := idempotent.repeated _ _ _ _ _ _ _ names_pause performed first.1 none world
  have ⟨_, returned, same⟩ := second.same
  have ended := side_by_side performed first.1 same returned
  refine ⟨rfl, reached, rounds, served_again, run, stored, idempotent, store, world, ended,
    first.2, ?_⟩
  exact overlaps _ _ _ _ _ ended (List.cons_ne_nil _ _) (by simp)

end Flow.Approval

end DurableWorkflow
