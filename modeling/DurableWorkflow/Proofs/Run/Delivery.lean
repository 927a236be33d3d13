import DurableWorkflow.Proofs.Handler.Exchange

namespace DurableWorkflow

section UpdateFirst

variable {α : Type} {p q : α → Bool} {f : α → α} {list : List α}

theorem countP_updateFirst (h : ∀ a, q a → p (f a) = p a) :
    (updateFirst q f list).countP p = list.countP p := by
  induction list
  case nil => rfl
  case cons a rest ih =>
    rw [updateFirst]
    split
    case isTrue found => simp only [List.countP_cons, h a found]
    case isFalse      => simp only [List.countP_cons, ih]

theorem countP_updateFirst_of_find? {a : α} (found : list.find? q = some a) (before : p a)
    (after : p (f a) = false) : (updateFirst q f list).countP p + 1 = list.countP p := by
  induction list
  case nil => cases found
  case cons b rest ih =>
    rw [updateFirst]
    cases hq : q b
    case true =>
      simp only [List.find?_cons, hq] at found
      cases found
      simp [before, after]
    case false =>
      simp only [List.find?_cons, hq] at found
      simp only [Bool.false_eq_true, if_false, List.countP_cons, ← ih found]
      omega

theorem getElem?_updateFirst {i : Nat} {a : α} (h : list[i]? = some a) (same : q a → f a = a) :
    (updateFirst q f list)[i]? = some a := by
  induction list generalizing i
  case nil => exact h
  case cons b rest ih =>
    rw [updateFirst]
    cases i <;> simp only [List.getElem?_cons_zero, List.getElem?_cons_succ] at h
    case zero =>
      cases h
      split
      case isTrue found => simp [same found]
      case isFalse      => rfl
    case succ =>
      split
      case isTrue  => exact h
      case isFalse => exact ih h

end UpdateFirst

namespace ResumeEntry

variable {id other : String} {entry : ResumeEntry}

def expects (id : String) (entry : ResumeEntry) : Bool :=
  entry.isEvent && entry.awaits id

theorem expects_fire : entry.fire.expects id = entry.expects id := by
  cases entry <;> rfl

theorem expects_deliver {payload : Json} : (entry.deliver payload).expects id = false := by
  cases entry <;> simp [deliver, expects, isEvent, awaits, isResolved]

theorem expects_of_awaits (h : entry.awaits other) (hne : other ≠ id) :
    entry.expects id = false := by
  have : entry.id ≠ id := fun hid => hne (by simp [awaits] at h; rw [← h.1, hid])
  simp [expects, awaits, this]

end ResumeEntry

namespace Run

variable {id other : String} {run : Run} {now : Timestamp}

def expected (id : String) (run : Run) : Nat :=
  run.pending.countP (ResumeEntry.expects id)

def deliver (id : String) (payload : Option Json) (run : Run) : Run :=
  let deliver := ResumeEntry.deliver (payload.getD .null)
  { run with pending := updateFirst (ResumeEntry.awaits id) deliver run.pending }

theorem Steered.expected_le {after : Run} (h : run.Steered after) :
    after.expected id ≤ run.expected id :=
  h.pending.countP_le

theorem pending_performAction {ω : Type} {key : String} {accepts : Json → Bool}
    {thunk : ω → ActionResult × ω} {world : ω} :
    (run.performAction now key accepts thunk world).2.1.pending = run.pending := by
  rw [performAction]
  cases run.memo.get? key
  case some => rfl
  case none =>
    dsimp only
    rcases thunk world with ⟨_ | _ | _, _⟩ <;> rfl

theorem pending_setState {state : Json} : (run.setState state).2.pending = run.pending := by
  rw [setState]
  split <;> rfl

theorem expected_pollTimer {deadline : Timestamp} {fired : Bool} :
    (run.pollTimer now other deadline fired).2.expected id = run.expected id := by
  rw [pollTimer]
  split
  case isTrue  => exact countP_updateFirst fun _ _ => ResumeEntry.expects_fire
  case isFalse => rfl

theorem expected_waitMillis {key : String} {millis : Nat} :
    (run.waitMillis now key millis).2.expected id = run.expected id := by
  rw [waitMillis]
  rcases run.entry? (resumeId run.currentStep key) with _ | ⟨_ | _⟩
  case some.event => rfl
  case some.timer => exact expected_pollTimer
  case none =>
    refine expected_pollTimer.trans ?_
    simp [expected, register, ResumeEntry.expects, ResumeEntry.isEvent]

theorem expected_resolve {payload : Option Json} :
    (run.resolve now other payload).2.expected id +
        (other = id &&
          (run.pending.find? (ResumeEntry.awaits other)).any ResumeEntry.isEvent).toNat =
      run.expected id := by
  rw [resolve]
  rcases hf : run.pending.find? (ResumeEntry.awaits other) with
    _ | ⟨_, deadline, _⟩ | ⟨_, filter, delivered⟩
  case none => simp
  case some.timer =>
    simp only [Option.any_some, ResumeEntry.isEvent, Bool.and_false, Bool.toNat_false, Nat.add_zero]
    split
    case isTrue  => exact countP_updateFirst fun _ _ => ResumeEntry.expects_fire
    case isFalse => rfl
  case some.event =>
    simp only [Option.any_some, ResumeEntry.isEvent, Bool.and_true]
    by_cases hid : other = id
    case pos =>
      subst hid
      have awaits := List.find?_some hf
      rw [decide_eq_true rfl]
      exact countP_updateFirst_of_find? hf awaits ResumeEntry.expects_deliver
    case neg =>
      rw [decide_eq_false hid]
      refine countP_updateFirst fun entry awaits => ?_
      rw [ResumeEntry.expects_deliver, ResumeEntry.expects_of_awaits awaits hid]

theorem expected_waitEvent {key : String} {filter : Json} :
    (run.waitEvent key filter).2.expected id =
      run.expected id + (resumeId run.currentStep key = id && (run.entry? id).isNone).toNat := by
  rw [waitEvent]
  by_cases hid : resumeId run.currentStep key = id
  case pos =>
    subst hid
    rcases run.entry? (resumeId run.currentStep key) with _ | ⟨_ | _⟩
    case none => simp [expected, register, ResumeEntry.expects, ResumeEntry.isEvent,
      ResumeEntry.awaits, ResumeEntry.id, ResumeEntry.isResolved]
    all_goals simp
  case neg =>
    rw [decide_eq_false hid, Bool.false_and, Bool.toNat_false, Nat.add_zero]
    rcases run.entry? (resumeId run.currentStep key) with _ | ⟨_ | _⟩
    case none => simp [expected, register, ResumeEntry.expects, ResumeEntry.awaits, ResumeEntry.id,
      hid]
    all_goals rfl

-- The entry at a position is an event that has its payload.
structure Delivered (run : Run) (i : Nat) (entry : ResumeEntry) : Prop where
  there    : run.pending[i]? = some entry
  event    : entry.isEvent
  resolved : entry.isResolved

namespace Delivered

variable {i : Nat} {entry : ResumeEntry}

theorem of_pending (h : run.Delivered i entry) {after : Run} (same : after.pending = run.pending) :
    after.Delivered i entry := by
  refine { h with there := ?_ }
  rw [same]
  exact h.there

theorem update (h : run.Delivered i entry) {q : ResumeEntry → Bool} {f : ResumeEntry → ResumeEntry}
    (same : q entry → f entry = entry) :
    Delivered { run with pending := updateFirst q f run.pending } i entry :=
  { h with there := getElem?_updateFirst h.there same }

theorem register (h : run.Delivered i entry) {added : ResumeEntry} :
    (run.register added).Delivered i entry :=
  { h with there := List.getElem?_append_left (List.getElem?_eq_some_iff.mp h.there).1 ▸ h.there }

theorem fire_eq (h : run.Delivered i entry) : entry.fire = entry := by
  have := h.event
  cases entry
  case timer => cases this
  case event => rfl

theorem not_awaits (h : run.Delivered i entry) : entry.awaits id = false := by
  rw [ResumeEntry.awaits, h.resolved, Bool.not_true, Bool.and_false]

theorem pollTimer (h : run.Delivered i entry) {deadline : Timestamp} {fired : Bool} :
    (run.pollTimer now id deadline fired).2.Delivered i entry := by
  rw [Run.pollTimer]
  split
  case isTrue  => exact h.update fun _ => h.fire_eq
  case isFalse => exact h

theorem waitMillis (h : run.Delivered i entry) {key : String} {millis : Nat} :
    (run.waitMillis now key millis).2.Delivered i entry := by
  rw [Run.waitMillis]
  rcases run.entry? (resumeId run.currentStep key) with _ | ⟨_ | _⟩
  case none       => exact h.register.pollTimer
  case some.timer => exact h.pollTimer
  case some.event => exact h

theorem waitEvent (h : run.Delivered i entry) {key : String} {filter : Json} :
    (run.waitEvent key filter).2.Delivered i entry := by
  rw [Run.waitEvent]
  rcases run.entry? (resumeId run.currentStep key) with _ | ⟨_ | _⟩
  case none => exact h.register
  all_goals exact h

theorem resolve (h : run.Delivered i entry) {payload : Option Json} :
    (run.resolve now id payload).2.Delivered i entry := by
  have others {f : ResumeEntry → ResumeEntry} (awaits : entry.awaits id) : f entry = entry := by
    rw [h.not_awaits] at awaits
    cases awaits
  rw [Run.resolve]
  rcases run.pending.find? (ResumeEntry.awaits id) with _ | ⟨_, deadline, _⟩ | _
  case none       => exact h
  case some.event => exact h.update others
  case some.timer =>
    dsimp only
    split
    case isTrue  => exact h.update others
    case isFalse => exact h

end Delivered

end Run

namespace Exchange

variable {ω : Type} (exchange : Exchange ω) (id : String)

def delivers : Bool :=
  match exchange.request with
  | .resolve resumed _ =>
    resumed = id && (exchange.run.pending.find? (ResumeEntry.awaits resumed)).any ResumeEntry.isEvent
  | _ => false

def registers : Bool :=
  match exchange.request with
  | .waitEvent key _ =>
    resumeId exchange.run.currentStep key = id && (exchange.run.entry? id).isNone
  | _ => false

-- A delivery takes away one of the entries that expect a payload, and a registration adds one.
theorem expected_after :
    exchange.after.expected id + (exchange.delivers id).toNat =
      exchange.run.expected id + (exchange.registers id).toNat := by
  obtain ⟨now, request, run, world⟩ := exchange
  cases request
  case action     => exact congrArg (List.countP _) Run.pending_performAction
  case setState   => exact congrArg (List.countP _) Run.pending_setState
  case waitMillis => exact Run.expected_waitMillis
  case waitEvent  => exact Run.expected_waitEvent
  case resolve    => exact Run.expected_resolve
  all_goals rfl

theorem delivered_after {i : Nat} {entry : ResumeEntry} (h : exchange.run.Delivered i entry) :
    exchange.after.Delivered i entry := by
  obtain ⟨now, request, run, world⟩ := exchange
  cases request
  case action     => exact h.of_pending Run.pending_performAction
  case setState   => exact h.of_pending Run.pending_setState
  case waitMillis => exact h.waitMillis
  case waitEvent  => exact h.waitEvent
  case resolve    => exact h.resolve
  all_goals exact { h with }

end Exchange

theorem Trail.expected_le {ω : Type} {begun last : Run} {exchanges : List (Exchange ω)} {id : String}
    (t : Trail begun exchanges last) :
    last.expected id + exchanges.countP (·.delivers id) ≤
      begun.expected id + exchanges.countP (·.registers id) := by
  induction t
  case nil h => simpa using h.expected_le
  case cons exchange _ h _ ih =>
    have steered : exchange.run.expected id ≤ _ := h.expected_le
    have balance := exchange.expected_after id
    rw [List.countP_cons, List.countP_cons]
    cases hd : exchange.delivers id <;> cases hr : exchange.registers id <;>
      simp [hd, hr] at balance ⊢ <;> omega

end DurableWorkflow
