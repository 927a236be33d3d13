import DurableWorkflow.Proofs.Handler.Running
import DurableWorkflow.Proofs.Workflow.Event
import DurableWorkflow.Workflow.Flight

namespace DurableWorkflow

def Request.Steady {ω : Type} (request : Request ω) : Prop :=
  ∀ millis, request ≠ .pause millis

namespace Script

variable {ω α β : Type} {script : Script ω α} {request : Request ω}
  {next : request.Reply → Script ω α} {now : Timestamp} {run : Run} {world : ω}

-- The script that is followed up to its first pause.
def untilPause : Script ω α → Script ω (Stretch ω α)
  | .pure value => .pure (.ended (.returned value))
  | .panic => .panic
  | .call (.pause 0) next => .call (.pause 0) fun reply => (next reply).untilPause
  | .call (.pause millis) next => .pure (.paused millis (next ()))
  | .call request next => .call request fun reply => (next reply).untilPause

theorem untilPause_call (steady : request.Steady) :
    (Script.call request next).untilPause = .call request fun reply => (next reply).untilPause := by
  cases request
  case pause millis => exact absurd rfl (steady millis)
  all_goals rfl

theorem follow_call (steady : request.Steady) :
    (Script.call request next).follow now run world =
      match request.answer now run world with
      | (.returned reply, run, world) => (next reply).follow now run world
      | (.panicked, run, world)       => (.ended .panicked, run, world) := by
  cases request
  case pause millis => exact absurd rfl (steady millis)
  case action key accepts thunk =>
    rcases h : Request.answer now (.action key accepts thunk) run world with ⟨_ | _, after, left⟩ <;>
      simp only [follow, h]
  all_goals rfl

theorem follow_eq :
    script.follow now run world =
      match script.untilPause.run now run world with
      | (.returned stretch, run, world) => (stretch, run, world)
      | (.panicked, run, world)         => (.ended .panicked, run, world) := by
  induction script generalizing run world
  case pure  => rfl
  case panic => rfl
  case call request next ih =>
    by_cases steady : request.Steady
    case pos =>
      rw [follow_call steady, untilPause_call steady, Script.run]
      rcases request.answer now run world with ⟨_ | _, after, world⟩
      case returned reply => exact ih reply
      case panicked       => rfl
    case neg =>
      obtain ⟨millis, rfl⟩ := Classical.not_forall_not.mp steady
      cases millis
      case zero => exact ih ()
      case succ => rfl

theorem follow_run :
    (script.follow now run world).2.1 = (script.untilPause.run now run world).2.1 := by
  rw [follow_eq]
  rcases script.untilPause.run now run world with ⟨_ | _, after, world⟩ <;> rfl

inductive Unpaused : Script ω α → Prop
  | pure (value : α) : Unpaused (.pure value)
  | panic : Unpaused .panic
  | call {request : Request ω} {next : request.Reply → Script ω α} (steady : request.Steady)
      (rest : ∀ reply, (next reply).Unpaused) : Unpaused (.call request next)

theorem Unpaused.bind {next : α → Script ω β} (h : script.Unpaused)
    (rest : ∀ value, (next value).Unpaused) : (script.bind next).Unpaused := by
  induction h with
  | pure value       => exact rest value
  | panic            => exact .panic
  | call steady _ ih => exact .call steady ih

theorem Unpaused.untilPause_eq (h : script.Unpaused) :
    script.untilPause = script.bind fun value => .pure (.ended (.returned value)) := by
  induction h with
  | pure  => rfl
  | panic => rfl
  | call steady _ ih => exact (untilPause_call steady).trans (congrArg _ (funext ih))

theorem Unpaused.exchanges_untilPause (h : script.Unpaused) :
    script.untilPause.exchanges now run world = script.exchanges now run world := by
  rw [h.untilPause_eq, exchanges_bind]
  rcases script.run now run world with ⟨_ | _, after, world⟩ <;> exact List.append_nil _

theorem Unpaused.follow_eq (h : script.Unpaused) :
    script.follow now run world =
      let (result, after, world) := script.run now run world
      (.ended result, after, world) := by
  rw [Script.follow_eq, h.untilPause_eq, run_bind]
  rcases script.run now run world with ⟨_ | _, after, world⟩ <;> rfl

end Script

namespace HandlerM

variable {ω α β : Type}

theorem unpaused_bind {first : HandlerM ω α} {next : α → HandlerM ω β}
    (h : Script.Unpaused first.run) (rest : ∀ value, Script.Unpaused (next value).run) :
    Script.Unpaused (first >>= next).run := by
  refine Script.Unpaused.bind h fun reply => ?_
  cases reply
  case ok value    => exact rest value
  case error error => exact .pure _

theorem unpaused_state : Script.Unpaused (state : HandlerM ω Json).run :=
  .call (by rintro _ ⟨⟩) fun run => .pure _

theorem unpaused_action {key : String} {accepts : Json → Bool} {thunk : ω → ActionResult × ω} :
    Script.Unpaused (action key accepts thunk).run :=
  .call (by rintro _ ⟨⟩) .pure

theorem unpaused_waitMillis {key : String} {millis : Nat} :
    Script.Unpaused (waitMillis key millis : HandlerM ω _).run :=
  .call (by rintro _ ⟨⟩) .pure

theorem unpaused_waitEvent {key : String} {filter : Json} :
    Script.Unpaused (waitEvent key filter : HandlerM ω _).run :=
  .call (by rintro _ ⟨⟩) .pure

theorem unpaused_setState {state : Json} :
    Script.Unpaused (setState state : HandlerM ω _).run :=
  .call (by rintro _ ⟨⟩) .pure

theorem unpaused_putState {state : Json} :
    Script.Unpaused (putState state : HandlerM ω _).run :=
  .call (by rintro _ ⟨⟩) fun run => .pure _

end HandlerM

-- What events lead from one run to another while the clock shows some times.
structure Passage {ω : Type} (times : List Timestamp) (first : Run) (events : List (Event ω))
    (last : Run) : Prop where
  chronicle : Chronicle first events last
  trail     : Trail first (events.filterMap Event.exchange?) last
  live      : ∀ event ∈ events, event.run.status.isClosed = false
  timed     : Timed times (events.filterMap Event.exchange?)

namespace Passage

variable {ω : Type} {times times' : List Timestamp} {first second third run : Run}
  {earlier later : List (Event ω)} {now : Timestamp}

theorem shown (h : Passage times first earlier second) (exchange : Exchange ω)
    (hm : .exchange exchange ∈ earlier) : exchange.time ∈ times :=
  h.timed.shown exchange (List.mem_filterMap.mpr ⟨_, hm, rfl⟩)

theorem of_held (h : first.Held second) (steered : first.Steered second) :
    Passage times first ([] : List (Event ω)) second where
  chronicle := .nil h
  trail     := .nil steered
  live      := List.forall_mem_nil _
  timed     := .nil

theorem append (h₁ : Passage times first earlier second) (h₂ : Passage times' second later third) :
    Passage (times ++ times') first (earlier ++ later) third where
  chronicle := h₁.chronicle.append h₂.chronicle
  trail     := List.filterMap_append ▸ h₁.trail.append h₂.trail
  live      := List.forall_mem_append.mpr ⟨h₁.live, h₂.live⟩
  timed     := List.filterMap_append ▸ h₁.timed.append h₂.timed

theorem append_still (h₁ : Passage [now] first earlier second)
    (h₂ : Passage [now] second later third) : Passage [now] first (earlier ++ later) third where
  chronicle := h₁.chronicle.append h₂.chronicle
  trail     := List.filterMap_append ▸ h₁.trail.append h₂.trail
  live      := List.forall_mem_append.mpr ⟨h₁.live, h₂.live⟩
  timed     := List.filterMap_append ▸ h₁.timed.append_still h₂.timed

theorem conclude (live : run.status.isClosed = false)
    (result : Outcome (Except Error StepOutcome)) :
    Passage [now] run (Event.atEnd run result : List (Event ω))
      (run.concludeStep run.currentStep result).2 where
  chronicle := .conclude live result
  trail     := Event.filterMap_atEnd ▸ .nil (.concludeStep run.currentStep result)
  live event hm := by
    obtain ⟨next, rfl⟩ := Event.exists_leave hm
    exact live
  timed     := Event.filterMap_atEnd ▸ .nil

end Passage

theorem Script.passage {ω α : Type} {run : Run} (script : Script ω α) (now : Timestamp)
    (live : run.status.isClosed = false) (world : ω) :
    Passage [now] run ((script.exchanges now run world).map .exchange)
      (script.run now run world).2.1 where
  chronicle := script.chronicle now run world
  trail     := (Event.filterMap_exchange? _).symm ▸ script.trail now run world
  live event hm := by
    obtain ⟨made, within, rfl⟩ := List.mem_map.mp hm
    exact (Script.served_of_mem within).status ▸ live
  timed     := (Event.filterMap_exchange? _).symm ▸ .still fun _ => Script.time_of_mem

namespace Flight

variable {ω : Type}

def roundEvents (now : Timestamp) (next : Run → ω → List (Event ω)) (flight : Flight ω)
    (world : ω) : List (Event ω) :=
  (flight.script.untilPause.exchanges now flight.run world).map .exchange ++
    match flight.script.follow now flight.run world with
    | (.paused .., _, _) => []
    | (.ended result, run, world) =>
      Event.atEnd run result ++
        let (progress, run) := run.concludeStep flight.run.currentStep result
        match run.concludeRound progress with
        | (none, run)  => next run world
        | (some _, _) => []

def roundsEvents (workflow : Workflow ω) (now : Timestamp) (budget : Budget) :
    Nat → Run → ω → List (Event ω)
  | 0, _, _ => []
  | left + 1, run, world =>
    match workflow.enter run with
    | .error _ => []
    | .ok handler =>
      roundEvents now (roundsEvents workflow now budget left)
        { workflow, budget, left, script := handler.run, run } world

def startEvents (workflow : Workflow ω) (now : Timestamp) (budget : Budget) (run : Run)
    (world : ω) : List (Event ω) :=
  if run.status.isClosed then []
  else roundsEvents workflow now budget budget.rounds run.launch world

def goOnEvents (now : Timestamp) (flight : Flight ω) (world : ω) : List (Event ω) :=
  roundEvents now (roundsEvents flight.workflow now flight.budget flight.left) flight world

def Leg.run : Leg ω → Run
  | .landed _ run    => run
  | .paused _ flight => flight.run

structure Moment (ω : Type) where
  clock : Instant
  world : ω

def Moment.now (moment : Moment ω) : Timestamp :=
  moment.clock.timestamp

-- What becomes of a flight that is taken on at some moments. While its handlers pause, the clock
-- may be moved and others may change the surroundings.
structure Journey (ω : Type) where
  leg    : Leg ω
  world  : ω
  events : List (Event ω)
  clocks : List Instant

def Leg.takeOn : List (Moment ω) → Leg ω × ω → Journey ω
  | moment :: rest, (.paused _ flight, _) =>
    let later := takeOn rest (flight.goOn moment.now moment.world)
    { later with
      events := flight.goOnEvents moment.now moment.world ++ later.events
      clocks := moment.clock :: later.clocks }
  | _, (leg, world) => ⟨leg, world, [], []⟩

def journey (workflow : Workflow ω) (clock : Instant) (budget : Budget) (run : Run) (world : ω)
    (moments : List (Moment ω)) : Journey ω :=
  let later := Leg.takeOn moments (start workflow clock.timestamp budget run world)
  { later with
    events := startEvents workflow clock.timestamp budget run world ++ later.events
    clocks := clock :: later.clocks }

variable {workflow : Workflow ω} {now : Timestamp} {budget : Budget} {run first : Run} {world : ω}
  {flight : Flight ω} {left : Nat} {clock : Instant} {moments : List (Moment ω)}
  {events : List (Event ω)} {leg : Leg ω}

structure Takes (now : Timestamp) (first : Run) (events : List (Event ω)) (leg : Leg ω) :
    Prop where
  passage : Passage [now] first events leg.run
  waits   : ∀ millis flight, leg = .paused millis flight → flight.run.status.isClosed = false

theorem Takes.prepend {second : Run} {earlier : List (Event ω)}
    (passage : Passage [now] first earlier second) (h : Takes now second events leg) :
    Takes now first (earlier ++ events) leg where
  passage := passage.append_still h.passage
  waits   := h.waits

theorem Takes.landed {last : Run} {ending : PassEnd} (h : run.Held last)
    (steered : run.Steered last) : Takes now run ([] : List (Event ω)) (.landed ending last) where
  passage := .of_held h steered
  waits   := by rintro _ _ ⟨⟩

theorem takes_finishRound {next : Run → ω → Leg ω × ω} {nextEvents : Run → ω → List (Event ω)}
    (live : flight.run.status.isClosed = false)
    (later : ∀ run world, run.status.isClosed = false →
      Takes now run (nextEvents run world) (next run world).1) :
    Takes now flight.run (flight.roundEvents now nextEvents world)
      (flight.finishRound now next world).1 := by
  have passage := flight.script.untilPause.passage now live world
  have served : flight.run.Served (flight.script.untilPause.run now flight.run world).2.1 :=
    Script.run_served _ _ _
  rw [← Script.follow_run] at passage served
  rw [finishRound, roundEvents]
  generalize flight.script.follow now flight.run world = followed at passage served ⊢
  obtain ⟨result | ⟨millis, rest⟩, after, world⟩ := followed
  all_goals
    have live : after.status.isClosed = false := served.status ▸ live
    refine .prepend passage ?_
  case paused =>
    refine ⟨.of_held (.refl after) (.refl after), ?_⟩
    rintro _ _ ⟨⟩
    exact live
  case ended =>
    dsimp only
    rw [← served.currentStep]
    refine .prepend (.conclude live result) ?_
    rcases result with (error | next | entry | _) | _
    case returned.ok.advance => exact later _ world live
    case returned.error      => exact .landed (.of_live live rfl rfl rfl rfl) (.fail _)
    all_goals exact .landed (.refl _) (.refl _)

theorem takes_rounds (live : run.status.isClosed = false) :
    Takes now run (roundsEvents workflow now budget left run world)
      (rounds workflow now budget left run world).1 := by
  induction left generalizing run world
  case zero =>
    have steered : run.Steered (budget.exhausted run).2 := .exhausted budget
    cases budget <;> exact .landed (.of_live live rfl rfl rfl rfl) steered
  case succ left ih =>
    rw [roundsEvents, rounds]
    cases workflow.enter run
    case error => exact .landed (.of_live live rfl rfl rfl rfl) (.fail _)
    case ok handler =>
      let begun : Flight ω := { workflow, budget, left, script := handler.run, run }
      exact takes_finishRound (show begun.run.status.isClosed = false from live) fun _ _ => ih

theorem takes_start (workflow : Workflow ω) (now : Timestamp) (budget : Budget) (run : Run)
    (world : ω) :
    Takes now run (startEvents workflow now budget run world)
      (start workflow now budget run world).1 := by
  rw [startEvents, start]
  split
  case isTrue => exact .landed (.refl run) (.refl run)
  case isFalse live =>
    have live : run.status.isClosed = false := by simpa using live
    have launched : Passage [now] run ([] : List (Event ω)) run.launch :=
      .of_held (.of_live live rfl rfl rfl rfl) .launch
    exact .prepend launched (takes_rounds rfl)

theorem takes_goOn (now : Timestamp) (live : flight.run.status.isClosed = false) (world : ω) :
    Takes now flight.run (flight.goOnEvents now world) (flight.goOn now world).1 :=
  takes_finishRound live fun _ _ => takes_rounds

theorem passage_takeOn {reached : Leg ω × ω}
    (waits : ∀ millis flight, reached.1 = .paused millis flight →
      flight.run.status.isClosed = false) :
    let later := Leg.takeOn moments reached
    Passage (later.clocks.map Instant.timestamp) reached.1.run later.events later.leg.run := by
  induction moments generalizing reached
  case nil => exact .of_held (.refl _) (.refl _)
  case cons moment rest ih =>
    obtain ⟨_ | ⟨millis, flight⟩, world⟩ := reached
    case landed => exact .of_held (.refl _) (.refl _)
    case paused =>
      have live := waits millis flight rfl
      have ⟨passage, waits⟩ := takes_goOn moment.now live moment.world
      exact passage.append (ih waits)

theorem journey_passage {made : Journey ω}
    (h : journey workflow clock budget run world moments = made) :
    Passage (made.clocks.map Instant.timestamp) run made.events made.leg.run := by
  have ⟨passage, waits⟩ := takes_start workflow clock.timestamp budget run world
  subst h
  exact passage.append (passage_takeOn waits)

end Flight

def Workflow.Unpaused {ω : Type} (workflow : Workflow ω) : Prop :=
  ∀ step handler, workflow.handler? step = some handler → Script.Unpaused handler.run

namespace Flight

variable {ω : Type} {workflow : Workflow ω}

theorem rounds_of_unpaused (h : workflow.Unpaused) (now : Timestamp) (budget : Budget) (left : Nat)
    (run : Run) (world : ω) :
    rounds workflow now budget left run world =
        (let (ending, last, world) := workflow.rounds now budget left run world
        (.landed ending last, world)) ∧
      roundsEvents workflow now budget left run world =
        workflow.roundsEvents now left run world := by
  induction left generalizing run world
  case zero => exact ⟨rfl, rfl⟩
  case succ left ih =>
    rw [rounds, roundsEvents, Workflow.rounds, Workflow.roundsEvents, Workflow.stepOnce,
      Workflow.stepEvents]
    cases entered : workflow.enter run
    case error => exact ⟨rfl, rfl⟩
    case ok handler =>
      have steady := h run.currentStep handler (Workflow.handler?_of_enter entered)
      dsimp only
      rw [finishRound, roundEvents, steady.exchanges_untilPause, steady.follow_eq]
      rcases Script.run now handler.run run world with ⟨result, after, world⟩
      dsimp only
      rcases after.concludeStep run.currentStep result with ⟨progress, settled⟩
      dsimp only
      rcases settled.concludeRound progress with ⟨_ | ending, last⟩
      case none =>
        obtain ⟨same, events⟩ := ih last world
        refine ⟨same, ?_⟩
        dsimp only
        rw [events, List.append_assoc]
      case some => exact ⟨rfl, (List.append_assoc _ _ _).symm⟩

theorem journey_of_unpaused (h : workflow.Unpaused) (clock : Instant) (budget : Budget) (run : Run)
    (world : ω) (moments : List (Moment ω)) :
    journey workflow clock budget run world moments =
      let (ending, last, world') := workflow.execute clock.timestamp budget run world
      { leg    := .landed ending last
        world  := world'
        events := workflow.passEvents clock.timestamp budget run world
        clocks := [clock] } := by
  rw [journey, start, startEvents, Workflow.execute, Workflow.passEvents]
  split
  case isTrue => cases moments <;> rfl
  case isFalse =>
    obtain ⟨same, events⟩ :=
      rounds_of_unpaused h clock.timestamp budget budget.rounds run.launch world
    rw [same, events]
    cases moments <;> simp [Leg.takeOn]

end Flight

end DurableWorkflow
