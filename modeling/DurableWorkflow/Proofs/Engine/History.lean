import DurableWorkflow.Proofs.Engine.Leads
import DurableWorkflow.Proofs.Workflow.Flight

namespace DurableWorkflow

open Flight

-- What the end of a flight stages. A flight that is given up at a pause stages nothing.
def Flight.Leg.staged? {ω : Type} : Leg ω → Option Run
  | .landed ending run => (Engine.stage run ending).2
  | .paused ..         => none

theorem Flight.Leg.run_of_staged {ω : Type} {leg : Leg ω} {last : Run}
    (h : leg.staged? = some last) : leg.run = last := by
  cases leg with
  | landed => exact Engine.eq_of_stage h
  | paused => cases h

namespace Engine

variable {ω : Type}

-- Other than an act, a call whose handlers pause takes its time: the clock may be moved meanwhile,
-- and others may change the surroundings. What they do to other runs can as well be told before the
-- call or after it.
inductive Happening (ω : Type)
  | act (act : Act ω)
  -- A call that goes on at some moments after pauses. It is given up if it pauses once more.
  | flight (engine : Engine ω) (call : Call) (moments : List (Moment ω))

inductive Happening.Makes : Happening ω → Engine ω → Call → Prop
  | act {act : Act ω} {engine : Engine ω} {call : Call} (makes : act.Makes engine call) :
    Makes (.act act) engine call
  | flight {engine : Engine ω} {call : Call} {moments : List (Moment ω)} :
    Makes (.flight engine call moments) engine call

namespace State

def journey? (s : State ω) (engine : Engine ω) (call : Call) (moments : List (Moment ω)) :
    Option (Journey ω) :=
  match engine.prepare s.now s.store call with
  | .ok (.drive workflow run) =>
    some (journey workflow s.clock engine.config.budget run s.world moments)
  | _ => none

def happen (s : State ω) : Happening ω → State ω
  | .act act => s.act act
  | .flight engine call moments =>
    match s.journey? engine call moments with
    | none         => s.after engine call
    | some journey =>
      { store := match journey.leg with
          | .landed ending run => (conclude s.store call.runId ending run).2
          | .paused ..         => s.store
        world := journey.world
        clock := journey.clocks.getLast?.getD s.clock }

def clocks (s : State ω) : Happening ω → List Instant
  | .act _ => [s.clock]
  | .flight engine call moments =>
    match s.journey? engine call moments with
    | none         => [s.clock]
    | some journey => journey.clocks

def eventsOf (runId : String) (s : State ω) : Happening ω → List (Event ω)
  | .act act => s.events runId act
  | .flight engine call moments =>
    match s.journey? engine call moments with
    | none         => s.events runId (.call engine call)
    | some journey =>
      if call.runId = runId ∧ journey.leg.staged?.isSome then
        (call.opening s.now (s.store.get? runId) s.world).map .exchange ++ journey.events
      else []

def history (runId : String) : State ω → List (Happening ω) → List (Event ω)
  | _, []                => []
  | s, happening :: rest => s.eventsOf runId happening ++ (s.happen happening).history runId rest

end State

variable {engine : Engine ω} {runId : String} {call : Call} {event : Event ω} {s : State ω}
  {happening : Happening ω} {happenings : List (Happening ω)} {moments : List (Moment ω)}
  {journey : Journey ω}

theorem exists_of_journey? (h : s.journey? engine call moments = some journey) :
    ∃ workflow run, engine.Grants s.now (s.store.get? call.runId) call (.drive workflow run) ∧
      Flight.journey workflow s.clock engine.config.budget run s.world moments = journey := by
  rw [State.journey?] at h
  split at h
  case h_1 workflow run prepared =>
    cases h
    exact ⟨workflow, run, prepare_eq_ok_iff.mp prepared, rfl⟩
  case h_2 => cases h

theorem exists_clocks_of_journey? (h : s.journey? engine call moments = some journey) :
    ∃ later, journey.clocks = s.clock :: later := by
  obtain ⟨_, _, _, rfl⟩ := exists_of_journey? h
  exact ⟨_, rfl⟩

theorem exists_passage_of_journey? {last : Run} (h : s.journey? engine call moments = some journey)
    (staged : journey.leg.staged? = some last) :
    ∃ workflow run, engine.Grants s.now (s.store.get? call.runId) call (.drive workflow run) ∧
      Passage (journey.clocks.map Instant.timestamp) run journey.events last := by
  obtain ⟨workflow, run, granted, made⟩ := exists_of_journey? h
  exact ⟨workflow, run, granted, Leg.run_of_staged staged ▸ journey_passage made⟩

theorem store_of_journey (h : s.journey? engine call moments = some journey) :
    (s.happen (.flight engine call moments)).store =
      s.store.commit call.runId journey.leg.staged? := by
  rw [State.happen, h]
  dsimp only
  cases journey.leg with
  | landed ending run => exact congrArg Prod.snd (conclude_eq_stage s.store call.runId ending run)
  | paused            => rfl

theorem happen_of_unpaused
    (steady : ∀ workflow run,
      engine.Grants s.now (s.store.get? call.runId) call (.drive workflow run) → workflow.Unpaused)
    (moments : List (Moment ω)) :
    (s.happen (.flight engine call moments)).store = (s.after engine call).store := by
  cases made : s.journey? engine call moments with
  | none         => rw [State.happen, made]
  | some journey =>
    rw [store_of_journey made]
    obtain ⟨workflow, run, granted, rfl⟩ := exists_of_journey? made
    rw [journey_of_unpaused (steady workflow run granted), State.after, perform_eq,
      work_of_drive granted]
    rfl

theorem happen_leads
    (fresh : ∀ engine call, happening.Makes engine call → call.runId = runId → call.Fresh) :
    Leads (s.store.get? runId) (s.eventsOf runId happening)
      ((s.happen happening).store.get? runId) := by
  cases happening with
  | act act => exact act_leads fun engine call makes => fresh engine call (.act makes)
  | flight engine call moments =>
    have fresh := fresh engine call .flight
    rw [State.eventsOf]
    cases made : s.journey? engine call moments with
    | none =>
      rw [State.happen, made]
      dsimp only
      refine act_leads ?_
      rintro _ _ ⟨⟩
      exact fresh
    | some journey =>
      rw [store_of_journey made]
      dsimp only
      by_cases addressed : call.runId = runId
      case neg =>
        rw [if_neg fun h => addressed h.1, Store.get?_commit_of_ne addressed]
        exact .refl _
      case pos =>
        subst addressed
        rw [Store.get?_commit_self]
        cases staged : journey.leg.staged? with
        | none =>
          rw [if_neg (by simp)]
          exact .refl _
        | some last =>
          have ⟨workflow, run, granted, passage⟩ := exists_passage_of_journey? made staged
          rw [if_pos ⟨rfl, rfl⟩]
          exact granted.leads (fresh rfl) s.world passage.chronicle

theorem history_leads
    (fresh : ∀ happening ∈ happenings, ∀ engine call, happening.Makes engine call →
      call.runId = runId → call.Fresh) :
    Leads (s.store.get? runId) (s.history runId happenings)
      ((happenings.foldl State.happen s).store.get? runId) := by
  induction happenings generalizing s
  case nil => exact .refl _
  case cons happening rest ih =>
    have ⟨here, fresh⟩ := List.forall_mem_cons.mp fresh
    exact (happen_leads here).trans (ih fresh)

inductive Happens (engine : Engine ω) (clock : Instant) (loaded : Option Run) (call : Call) :
    Event ω → Prop
  | act {event : Event ω} (arises : engine.Arises clock.timestamp loaded call event) :
    Happens engine clock loaded call event
  | flight {workflow : Workflow ω} {run : Run} {world : ω} {moments : List (Moment ω)}
      {event : Event ω} (granted : engine.Grants clock.timestamp loaded call (.drive workflow run))
      (made : event ∈
        (Flight.journey workflow clock engine.config.budget run world moments).events) :
      Happens engine clock loaded call event

theorem Happens.live {clock : Instant} {loaded : Option Run}
    (h : engine.Happens clock loaded call event) : event.run.status.isClosed = false := by
  cases h with
  | act arises    => exact arises.live
  | flight _ made => exact (journey_passage rfl).live event made

theorem Happens.arises {clock : Instant} {loaded : Option Run}
    (h : engine.Happens clock loaded call event)
    (steady : ∀ workflow run, engine.Grants clock.timestamp loaded call (.drive workflow run) →
      workflow.Unpaused) : engine.Arises clock.timestamp loaded call event := by
  cases h with
  | act arises => exact arises
  | @flight workflow run world _ _ granted made =>
    rw [journey_of_unpaused (steady workflow run granted)] at made
    exact .pass (.intro world granted) made

theorem mem_eventsOf_journey (made : s.journey? engine call moments = some journey)
    (h : event ∈ s.eventsOf runId (.flight engine call moments)) :
    call.runId = runId ∧
      (event ∈ (call.opening s.now (s.store.get? runId) s.world).map .exchange ∨
        event ∈ journey.events) := by
  rw [State.eventsOf, made] at h
  dsimp only at h
  split at h
  case isTrue staged => exact ⟨staged.1, List.mem_append.mp h⟩
  case isFalse       => cases h

section Kept

-- What every call on a run keeps, whether it takes its time or not, holds of the run whenever
-- something happens to it.
variable {Q : Option Run → Prop}

def KeepsAloft (Q : Option Run → Prop) (engine : Engine ω) (call : Call) : Prop :=
  ∀ (s : State ω) (moments : List (Moment ω)), Q (s.store.get? call.runId) →
    Q ((s.happen (.flight engine call moments)).store.get? call.runId)

structure Upholds (Q : Option Run → Prop) (engine : Engine ω) (call : Call) : Prop where
  keeps : engine.Keeps Q call
  aloft : engine.KeepsAloft Q call

theorem Upholds.of_unpaused (keeps : engine.Keeps Q call)
    (steady : ∀ s : State ω, Q (s.store.get? call.runId) → ∀ workflow run,
      engine.Grants s.now (s.store.get? call.runId) call (.drive workflow run) →
        workflow.Unpaused) : engine.Upholds Q call where
  keeps
  aloft s moments holds := by
    rw [happen_of_unpaused (steady s holds)]
    exact perform_keeps (fun _ => keeps) s.now s.world holds

theorem happen_keeps
    (kept : ∀ engine call, happening.Makes engine call → call.runId = runId →
      engine.Upholds Q call)
    (h : Q (s.store.get? runId)) : Q ((s.happen happening).store.get? runId) := by
  cases happening with
  | act act =>
    exact act_keeps (fun engine call makes hr => (kept engine call (.act makes) hr).keeps) h
  | flight engine call moments =>
    by_cases addressed : call.runId = runId
    case pos =>
      subst addressed
      exact (kept engine call .flight rfl).aloft s moments h
    case neg =>
      cases made : s.journey? engine call moments with
      | none =>
        rw [State.happen, made]
        exact perform_keeps (fun hr => absurd hr addressed) s.now s.world h
      | some journey => rwa [store_of_journey made, Store.get?_commit_of_ne addressed]

theorem mem_happening
    (kept : ∀ engine call, happening.Makes engine call → call.runId = runId →
      engine.Upholds Q call)
    (h : Q (s.store.get? runId)) (hm : event ∈ s.eventsOf runId happening) :
    ∃ engine call loaded, happening.Makes engine call ∧ call.runId = runId ∧ Q loaded ∧
      engine.Happens s.clock loaded call event := by
  cases happening with
  | act act =>
    have ⟨engine, call, loaded, makes, addressed, holds, arises⟩ :=
      mem_act (fun engine call makes hr => (kept engine call (.act makes) hr).keeps) h hm
    exact ⟨engine, call, loaded, .act makes, addressed, holds, .act arises⟩
  | flight engine call moments =>
    cases made : s.journey? engine call moments with
    | none =>
      rw [State.eventsOf, made] at hm
      have ⟨addressed, arises⟩ := mem_eventsOf hm
      exact ⟨engine, call, _, .flight, addressed, h, .act arises⟩
    | some journey =>
      have ⟨addressed, hm⟩ := mem_eventsOf_journey made hm
      subst addressed
      refine ⟨engine, call, _, .flight, rfl, h, ?_⟩
      obtain ⟨workflow, run, granted, rfl⟩ := exists_of_journey? made
      rcases hm with opening | hm
      · exact .act (granted.opens opening)
      · exact .flight granted hm

theorem mem_history
    (kept : ∀ happening ∈ happenings, ∀ engine call, happening.Makes engine call →
      call.runId = runId → engine.Upholds Q call)
    (h : Q (s.store.get? runId)) (hm : event ∈ s.history runId happenings) :
    ∃ happening ∈ happenings, ∃ engine call loaded clock, happening.Makes engine call ∧
      call.runId = runId ∧ Q loaded ∧ engine.Happens clock loaded call event := by
  induction happenings generalizing s
  case nil => cases hm
  case cons happening rest ih =>
    have ⟨here, later⟩ := List.forall_mem_cons.mp kept
    rcases List.mem_append.mp hm with hm | hm
    · have ⟨engine, call, loaded, found⟩ := mem_happening here h hm
      exact ⟨happening, List.mem_cons_self, engine, call, loaded, s.clock, found⟩
    · have ⟨other, hm, rest⟩ := ih later (happen_keeps here h) hm
      exact ⟨other, List.mem_cons_of_mem _ hm, rest⟩

end Kept

theorem upholds_trivial (engine : Engine ω) (call : Call) :
    engine.Upholds (fun _ => True) call :=
  ⟨fun _ _ _ _ => trivial, fun _ _ _ => trivial⟩

theorem shown_of_mem_eventsOf {exchange : Exchange ω}
    (h : .exchange exchange ∈ s.eventsOf runId happening) :
    ∃ clock ∈ s.clocks happening, exchange.time = clock.timestamp := by
  cases happening with
  | act act =>
    have ⟨_, _, _, _, _, _, arises⟩ :=
      mem_act (fun engine call _ _ => (upholds_trivial engine call).keeps) trivial h
    exact ⟨s.clock, List.mem_singleton_self _, arises.time⟩
  | flight engine call moments =>
    rw [State.clocks]
    cases made : s.journey? engine call moments with
    | none =>
      rw [State.eventsOf, made] at h
      exact ⟨s.clock, List.mem_singleton_self _, (mem_eventsOf h).2.time⟩
    | some journey =>
      obtain ⟨rfl, hm⟩ := mem_eventsOf_journey made h
      obtain ⟨workflow, run, granted, rfl⟩ := exists_of_journey? made
      rcases hm with opening | hm
      · exact ⟨s.clock, List.mem_cons_self, (granted.opens opening).time⟩
      · have shown := (journey_passage rfl).shown exchange hm
        have ⟨clock, hc, time⟩ := List.mem_map.mp shown
        exact ⟨clock, hc, time.symm⟩

theorem exists_clock {exchange : Exchange ω} (h : .exchange exchange ∈ s.history runId happenings) :
    ∃ clock : Instant, exchange.time = clock.timestamp := by
  induction happenings generalizing s
  case nil => cases h
  case cons happening rest ih =>
    rcases List.mem_append.mp h with h | h
    · have ⟨clock, _, time⟩ := shown_of_mem_eventsOf h
      exact ⟨clock, time⟩
    · exact ih h

theorem live_of_mem_history (h : event ∈ s.history runId happenings) :
    event.run.status.isClosed = false := by
  have ⟨_, _, _, _, _, _, _, _, _, happens⟩ :=
    mem_history (fun _ _ engine call _ _ => upholds_trivial engine call) trivial h
  exact happens.live

end Engine

end DurableWorkflow
