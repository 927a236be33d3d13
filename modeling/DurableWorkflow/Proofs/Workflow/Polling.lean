import DurableWorkflow.Proofs.Clock
import DurableWorkflow.Proofs.Workflow.Waits

namespace DurableWorkflow

section UpdateFirst

variable {α : Type} {p q : α → Bool} {f : α → α} {list : List α} {a : α}

theorem find?_updateFirst_or (same : ∀ a, q (f a) = q a) (h : list.find? q = some a) :
    (updateFirst p f list).find? q = some a ∨
      list.find? p = some a ∧ (updateFirst p f list).find? q = some (f a) := by
  induction list
  case nil => cases h
  case cons b rest ih =>
    rw [updateFirst]
    cases hp : p b <;> cases hq : q b <;> simp only [List.find?_cons, hq] at h
    case false.false => simpa [hp, hq] using ih h
    case false.true  => simp [hq, h]
    case true.false  => simp [same, hq, h]
    case true.true   =>
      cases h
      simp [hp, same, hq]

end UpdateFirst

namespace Run

-- What is found under an id at a step is a timer that has not fired before its deadline, if the
-- clock shows at most `now`.
structure Ticks (step id : String) (deadline now : Timestamp) (run : Run) : Prop where
  currentStep : run.currentStep = step
  entry       : ∃ fired, run.entry? id = some (.timer id deadline fired) ∧
    (fired → deadline ≤ now)

variable {run after : Run} {step id key : String} {deadline now time : Timestamp}

namespace Ticks

theorem of_pending (h : run.Ticks step id deadline now)
    (currentStep : after.currentStep = run.currentStep) (same : after.pending = run.pending) :
    after.Ticks step id deadline now where
  currentStep := currentStep.trans h.currentStep
  entry       := by
    have ⟨fired, found, due⟩ := h.entry
    refine ⟨fired, ?_, due⟩
    rwa [ entry?, same]

theorem register {entry : ResumeEntry} (h : run.Ticks step id deadline now) :
    (run.register entry).Ticks step id deadline now where
  currentStep := h.currentStep
  entry       := by
    have ⟨fired, found, due⟩ := h.entry
    refine ⟨fired, ?_, due⟩
    rw [ entry?, Run.register, List.find?_append, show run.pending.find? _ = _ from found]
    rfl

theorem fire {p : ResumeEntry → Bool} (h : run.Ticks step id deadline now)
    (past : ∀ fired, run.pending.find? p = some (.timer id deadline fired) →
      fired ∨ deadline ≤ now) :
    { run with pending := updateFirst p ResumeEntry.fire run.pending }.Ticks
      step id deadline now where
  currentStep := h.currentStep
  entry       := by
    have ⟨fired, found, due⟩ := h.entry
    rcases find?_updateFirst_or (fun _ => by rw [ResumeEntry.id_fire]) found with
      there | ⟨polled, there⟩
    · exact ⟨fired, there, due⟩
    · exact ⟨true, there, fun _ => (past fired polled).elim due fun past => past⟩

theorem deliver {p : ResumeEntry → Bool} {payload : Json} (h : run.Ticks step id deadline now) :
    { run with pending := updateFirst p (ResumeEntry.deliver payload) run.pending }.Ticks
      step id deadline now where
  currentStep := h.currentStep
  entry       := by
    have ⟨fired, found, due⟩ := h.entry
    refine ⟨fired, ?_, due⟩
    have same (entry : ResumeEntry) : decide ((entry.deliver payload).id = id) =
        decide (entry.id = id) := by rw [ResumeEntry.id_deliver]
    rcases find?_updateFirst_or same found with there | ⟨_, there⟩ <;> exact there

theorem waitMillis {millis : Nat} (h : run.Ticks step id deadline now) (earlier : time ≤ now) :
    (run.waitMillis time key millis).2.Ticks step id deadline now := by
  rw [Run.waitMillis]
  rcases found : run.entry? (resumeId run.currentStep key) with _ | ⟨_, set, fired⟩ | _
  case some.event => exact h
  case none =>
    dsimp only
    rw [pollTimer_register found]
    exact h.register
  case some.timer =>
    dsimp only
    rw [pollTimer]
    split
    case isFalse => exact h
    case isTrue past =>
      refine h.fire fun _ polled => ?_
      cases found.symm.trans polled
      rcases Bool.or_eq_true_iff.mp past with fired | past
      · exact .inl fired
      · exact .inr (Int.le_trans (of_decide_eq_true past) earlier)

theorem waitEvent {filter : Json} (h : run.Ticks step id deadline now) :
    (run.waitEvent key filter).2.Ticks step id deadline now := by
  rw [Run.waitEvent]
  rcases run.entry? (resumeId run.currentStep key) with _ | ⟨_ | _⟩
  case none => exact h.register
  all_goals exact h

theorem resolve {resumed : String} {payload : Option Json} {reply : Except Error Bool}
    (h : run.Ticks step id deadline now) (earlier : time ≤ now)
    (resolved : run.resolve time resumed payload = (reply, after)) :
    after.Ticks step id deadline now := by
  cases resolution resolved with
  | unknown | early => exact h
  | delivered       => exact h.deliver
  | fired found due =>
    refine h.fire fun _ polled => ?_
    cases found.symm.trans polled
    exact .inr (Int.le_trans due earlier)

theorem exchange_after {ω : Type} {exchange : Exchange ω}
    (h : exchange.run.Ticks step id deadline now) (earlier : exchange.time ≤ now) :
    exchange.after.Ticks step id deadline now := by
  have served : exchange.run.Served exchange.after := exchange.request.answer_served
  have same := h.of_pending served.currentStep
  obtain ⟨time, request, run, world⟩ := exchange
  cases request
  case waitMillis => exact h.waitMillis earlier
  case waitEvent  => exact h.waitEvent
  case resolve    => exact h.resolve earlier rfl
  case action     => exact same pending_performAction
  case setState   => exact same pending_setState
  all_goals exact same rfl

theorem start (new : run.entry? (resumeId run.currentStep key) = none) (millis : Nat)
    (earlier : time ≤ now) :
    (run.waitMillis time key millis).2.Ticks run.currentStep (resumeId run.currentStep key)
      (time.after millis) now where
  currentStep := by rw [waitMillis_frame]
  entry       := by
    refine ⟨decide (time.after millis ≤ time), ?_, fun past => ?_⟩
    · rw [Run.waitMillis, new]
      dsimp only
      rw [pollTimer_register new, entry?, Run.register, List.find?_append,
        show run.pending.find? _ = none from new]
      simp [ResumeEntry.id]
    · exact Int.le_trans (of_decide_eq_true past) earlier

-- What a poll comes to is settled by two readings of the clock, one at the first poll of the timer
-- and one now, whatever was done to its run in between. As readings are cut to milliseconds, a
-- timer may be off by less than one of them to either side, and never by more.
theorem poll (h : run.Ticks run.currentStep (resumeId run.currentStep key) deadline now)
    (millis : Nat) :
    (run.waitMillis now key millis).1 =
      if deadline ≤ now then .ok none
      else .ok (some (.timer (resumeId run.currentStep key) deadline false)) := by
  have ⟨fired, found, due⟩ := h.entry
  rw [Run.waitMillis, found]
  dsimp only
  by_cases past : deadline ≤ now
  case pos => simp [pollTimer, past]
  case neg =>
    obtain rfl : fired = false := by simpa using mt due past
    simp [pollTimer, past]

end Ticks

end Run

namespace Event

variable {ω : Type} {visit : List (Exchange ω)} {events : List (Event ω)}

theorem foldl_onto (stays : ∀ run next, .leave run next ∉ events) :
    events.foldl onto visit = visit ++ events.filterMap exchange? := by
  induction events generalizing visit
  case nil => exact (List.append_nil visit).symm
  case cons event rest ih =>
    have stays' : ∀ run next, .leave run next ∉ rest := fun run next hm =>
      stays run next (.tail _ hm)
    rcases event with made | ⟨run, next⟩
    · rw [List.foldl_cons, ih stays', onto, List.append_assoc]
      rfl
    · exact absurd (.head _) (stays run next)

end Event

def Run.Ticking {ω : Type} (visit : List (Exchange ω)) (run : Run) : Prop :=
  ∀ earlier made later, visit = earlier ++ made :: later →
    ∀ key millis, made.request = .waitMillis key millis →
      made.run.entry? (resumeId made.run.currentStep key) = none →
      ∀ now, made.time ≤ now → (∀ exchange ∈ later, exchange.time ≤ now) →
        run.Ticks made.run.currentStep (resumeId made.run.currentStep key)
          (made.time.after millis) now

namespace Run.Ticking

variable {ω : Type} {visit : List (Exchange ω)} {run : Run}

theorem start : Ticking ([] : List (Exchange ω)) run := by
  intro earlier _ _ cut
  cases earlier <;> cases cut

theorem exchange_after {last : Exchange ω} (h : Ticking visit last.run) :
    Ticking (visit ++ [last]) last.after := by
  intro earlier made later cut key millis polled new now here between
  rcases concat_eq_append_cons cut with ⟨rfl, rfl, rfl⟩ | ⟨later, rfl, within⟩
  · obtain ⟨time, request, run, world⟩ := made
    cases polled
    exact .start new millis here
  · have ⟨between, last⟩ := List.forall_mem_append.mp between
    have ticks := h earlier made later within key millis polled new now here between
    exact ticks.exchange_after (last _ (.head _))

theorem upheld : Upheld (Ticking (ω := ω)) where
  held h between same := fun earlier made later cut key millis polled new now here times =>
    (h earlier made later cut key millis polled new now here times).of_pending
      between.currentStep same
  idle _ _ := start
  event {_ event} h := by
    cases event
    case exchange => exact exchange_after h
    case leave    => exact start

end Run.Ticking

structure Timely (first now : Instant) (millis : Nat) (reply : Except Error (Option ResumeEntry)) :
    Prop where
  early : now.nanos - first.nanos ≤ (millis - 1) * 1000000 →
    ∃ id, reply = .ok (some (.timer id (first.timestamp.after millis) false))
  late  : (millis + 1) * 1000000 ≤ now.nanos - first.nanos → reply = .ok none
  whole : 1000000 ∣ first.nanos → 1000000 ∣ now.nanos →
    (reply = .ok none ↔ millis * 1000000 ≤ now.nanos - first.nanos)

theorem Run.Ticks.timely {run : Run} {key : String} {first now : Instant} {millis : Nat}
    (h : run.Ticks run.currentStep (resumeId run.currentStep key) (first.timestamp.after millis)
      now.timestamp)
    (order : first.nanos ≤ now.nanos) (again : Nat) :
    Timely first now millis (run.waitMillis now.timestamp key again).1 := by
  have ahead := Instant.timestamp_sub_lt order
  have behind := Instant.lt_timestamp_sub first now
  rw [h.poll]
  by_cases past : first.timestamp.after millis ≤ now.timestamp
  case pos =>
    rw [if_pos past]
    rw [Instant.after_le_iff] at past
    refine {
      early := fun early => ?early
      late  := fun _ => rfl
      whole := fun whole whole' => ?whole
    }
    case early => omega
    case whole =>
      have := Instant.timestamp_of_dvd whole
      have := Instant.timestamp_of_dvd whole'
      exact iff_of_true rfl (by omega)
  case neg =>
    rw [if_neg past]
    rw [Instant.after_le_iff] at past
    refine {
      early := fun _ => ⟨_, rfl⟩
      late  := fun late => ?late
      whole := fun whole whole' => ?whole
    }
    case late => omega
    case whole =>
      have := Instant.timestamp_of_dvd whole
      have := Instant.timestamp_of_dvd whole'
      exact iff_of_false (by rintro ⟨⟩) (by omega)

-- A timer that is polled again, in whatever is done to its run but to cancel it and to leave its
-- step, is right up to a millisecond. The clock may show any instant, and the timer may be set for
-- any time: readings go with the clock, and instants of whole milliseconds are read as they are.
theorem Operation.polls_exact :
    (∀ {ω : Type} (operations : List (Timestamp × Operation ω)) (run : Run) (world : ω),
      (∀ occasion ∈ operations, occasion.2.isCancel = false) →
      ∀ (first now : Instant) (key : String) (millis again : Nat)
        (before between after : List (Event ω)) (asked later : Run) (world₁ world₂ : ω),
        history operations run world =
          before ++ .exchange ⟨first.timestamp, .waitMillis key millis, asked, world₁⟩ ::
            (between ++ .exchange ⟨now.timestamp, .waitMillis key again, later, world₂⟩ :: after) →
        asked.entry? (resumeId asked.currentStep key) = none →
        first.nanos ≤ now.nanos →
        (∀ left next, .leave left next ∉ between) →
        (∀ made, .exchange made ∈ between → made.time ≤ now.timestamp) →
        Timely first now millis (later.waitMillis now.timestamp key again).1) ∧
    (∀ first second : Instant, first.nanos ≤ second.nanos → first.timestamp ≤ second.timestamp) ∧
    (∀ time : Int, (∃ clock, Instant.ofMillis? time = some clock) ↔
      -377705116800000 ≤ time ∧ time < 253402300800000) ∧
    ∀ (time : Int) (clock : Instant), Instant.ofMillis? time = some clock →
      clock.timestamp.millis = time := by
  refine ⟨?polls, fun _ _ => Instant.timestamp_mono, fun _ => Instant.exists_ofMillis?_iff,
    fun _ _ => Instant.timestamp_of_ofMillis?⟩
  case polls =>
    intro ω operations run world kept first now key millis again before between after asked later
      world₁ world₂ cut new order stays times
    let made : Exchange ω := ⟨first.timestamp, .waitMillis key millis, asked, world₁⟩
    have upkeep : Upkeep Run.Ticking [] (history operations run world)
        (performAll operations run world).1 := Run.Ticking.upheld.history kept .start
    rw [cut, ← List.cons_append, ← List.append_assoc] at upkeep
    have ticking := upkeep.at_event
    rw [List.foldl_append, List.foldl_cons, Event.foldl_onto stays, Event.onto, List.append_assoc]
      at ticking
    have between : ∀ exchange ∈ between.filterMap Event.exchange?,
        exchange.time ≤ now.timestamp := by
      intro exchange hm
      obtain ⟨event, hm, same⟩ := List.mem_filterMap.mp hm
      cases event <;> cases same
      exact times _ hm
    have ticks := ticking _ made _ rfl key millis rfl new now.timestamp
      (Instant.timestamp_mono order) between
    have there : later.currentStep = asked.currentStep := ticks.currentStep
    refine Run.Ticks.timely ?_ order again
    rw [there]
    exact ticks

namespace Operation.Egg

def boil : HandlerM Unit StepOutcome := do
  match ← HandlerM.waitMillis "soft" 2 with
  | some entry => return .suspend entry
  | none       => return .done

def stove : Workflow Unit :=
  ⟨"egg", "boil", .null, .ofPairs [("boil", boil)]⟩

def first : Instant where
  nanos := -1500000

def early : Instant where
  nanos := -500000

def late : Instant where
  nanos := 1500000

def breakfast : List (Timestamp × Operation Unit) :=
  [(first.timestamp, .execute stove (.limited 1)),
    (early.timestamp, .execute stove (.unlimited 1)),
    (early.timestamp, .request (.resolve "boil:soft" none)),
    (early.timestamp, .reload),
    (late.timestamp, .execute stove (.limited 1))]

theorem egg_soft :
    (∃ asked later tried last rest,
      history breakfast stove.instantiate () =
        .exchange ⟨first.timestamp, .waitMillis "soft" 2, asked, ()⟩ ::
          .exchange ⟨early.timestamp, .waitMillis "soft" 2, later, ()⟩ ::
            .exchange ⟨early.timestamp, .resolve "boil:soft" none, tried, ()⟩ ::
              .exchange ⟨late.timestamp, .waitMillis "soft" 2, last, ()⟩ :: rest ∧
      (∃ id, (later.waitMillis early.timestamp "soft" 2).1 =
        .ok (some (.timer id (first.timestamp.after 2) false))) ∧
      (last.waitMillis late.timestamp "soft" 2).1 = .ok none) ∧
    first.timestamp ≤ late.timestamp ∧
    ∃ clock, Instant.ofMillis? (-1) = some clock ∧ clock.timestamp.millis = -1 := by
  obtain ⟨polls, mono, defined, back⟩ := @polls_exact
  have kept : ∀ occasion ∈ breakfast, occasion.2.isCancel = false := by
    simp [breakfast, isCancel]
  obtain ⟨clock, read⟩ := (defined (-1)).mpr (by decide)
  refine ⟨⟨_, _, _, _, _, rfl, ?early, ?late⟩, mono _ _ (by decide), clock, read, back _ _ read⟩
  case early =>
    have timely := polls breakfast stove.instantiate () kept first early "soft" 2 2 [] [] _ _ _
      () () rfl rfl (by decide) (by simp) (by simp)
    exact timely.early (by decide)
  case late =>
    have timely := polls breakfast stove.instantiate () kept first late "soft" 2 2 [] [_, _] _ _ _
      () () rfl rfl (by decide) (by simp) (by simp; decide)
    exact timely.late (by decide)

end Operation.Egg

end DurableWorkflow
