import DurableWorkflow.Proofs.Clock
import DurableWorkflow.Proofs.Handler.Yield
import DurableWorkflow.Proofs.Run.Timer
import DurableWorkflow.Sample.TrialConversion
import Mathlib

namespace DurableWorkflow

namespace TrialConversion

variable {ω : Type} {remind : Nat → ω → ω} {i j : Nat}

def delayKey (i : Nat) : String :=
  "delay-" ++ toString i

def delayId (i : Nat) : String :=
  resumeId "nurture" (delayKey i)

def reminderKey (i : Nat) : String :=
  "reminder-" ++ toString i

def sending (remind : Nat → ω → ω) (i : Nat) (world : ω) : ActionResult × ω :=
  (.returned (Json.ofMembers [("reminder", .nat i)]), remind i world)

def reminder (remind : Nat → ω → ω) (i : Nat) : Request ω :=
  .action (reminderKey i) (fun _ => true) (sending remind i)

def reminders (remind : Nat → ω → ω) (first last : Nat) : List (Request ω) :=
  (List.range' first (last - first)).map (reminder remind)

theorem delayId_inj : delayId i = delayId j ↔ i = j := by
  simp [delayId, delayKey, resumeId, String.append_right_inj, Nat.repr_inj]

theorem reminderKey_inj : reminderKey i = reminderKey j ↔ i = j := by
  simp [reminderKey, String.append_right_inj, Nat.repr_inj]

theorem reminder_inj : reminder remind i = reminder remind j ↔ i = j := by
  refine ⟨fun same => ?_, fun same => same ▸ rfl⟩
  injection same with key
  exact reminderKey_inj.mp key

theorem reminders_self : reminders remind i i = [] := by
  rw [reminders, Nat.sub_self]
  rfl

theorem reminders_cons (h : i < j) :
    reminders remind i j = reminder remind i :: reminders remind (i + 1) j := by
  obtain ⟨count, rfl⟩ := Nat.exists_eq_add_of_lt h
  rw [reminders, show i + count + 1 - i = count + 1 by omega, List.range'_succ, reminders,
    show i + count + 1 - (i + 1) = count by omega]
  rfl

theorem reminders_append {k : Nat} (h₁ : i ≤ j) (h₂ : j ≤ k) :
    reminders remind i j ++ reminders remind j k = reminders remind i k := by
  have length : k - i = (j - i) + (k - j) := by omega
  rw [reminders, reminders, reminders, ← List.map_append, length, ← List.range'_append_1,
    show i + (j - i) = j by omega]

theorem mem_reminders {request : Request ω} :
    request ∈ reminders remind i j ↔ ∃ k, i ≤ k ∧ k < j ∧ request = reminder remind k := by
  simp only [reminders, List.mem_map, List.mem_range'_1]
  constructor
  case mp =>
    rintro ⟨k, ⟨lower, upper⟩, rfl⟩
    exact ⟨k, lower, by omega, rfl⟩
  case mpr =>
    rintro ⟨k, lower, upper, rfl⟩
    exact ⟨k, ⟨lower, by omega⟩, rfl⟩

theorem delayId_ne_activation : delayId i ≠ activation := by
  intro h
  have h := congrArg (·.toList[8]?) h
  simp [delayId, delayKey, activation, resumeId] at h

def timers (past : List Timestamp) : List ResumeEntry :=
  past.mapIdx fun i deadline => .timer (delayId i) deadline true

-- What a trial waits for. There is a timer for the present delay if it was started.
def entries (past : List Timestamp) (present : Option Timestamp) : List ResumeEntry :=
  .event activation filter none ::
    (timers past ++ present.toList.map (.timer (delayId past.length) · false))

variable {past : List Timestamp} {present : Option Timestamp} {deadline : Timestamp}

theorem timers_concat :
    timers (past ++ [deadline]) = timers past ++ [.timer (delayId past.length) deadline true] := by
  simp [timers, List.mapIdx_append]

theorem find?_timers :
    (timers past).find? (fun entry => entry.id = delayId i) =
      past[i]?.map (.timer (delayId i) · true) := by
  induction past using List.reverseRecOn
  case nil => rfl
  case append_singleton past last ih =>
    rw [timers_concat, List.find?_append, ih, List.getElem?_append]
    by_cases before : i < past.length
    case pos => simp [before]
    case neg =>
      rw [List.getElem?_eq_none (Nat.le_of_not_lt before)]
      by_cases same : i = past.length
      case pos =>
        subst same
        simp [ResumeEntry.id]
      case neg =>
        have later : ¬ past.length = i := fun h => same h.symm
        have beyond : [last][i - past.length]? = none :=
          List.getElem?_eq_none (by rw [List.length_singleton]; omega)
        simp [ResumeEntry.id, delayId_inj, later, before, beyond]

theorem mem_entries {entry : ResumeEntry} (h : entry ∈ entries past present) :
    entry = .event activation filter none ∨
      (∃ i deadline, entry = .timer (delayId i) deadline true) ∨
      ∃ deadline ∈ present, entry = .timer (delayId past.length) deadline false := by
  simp only [entries, timers, List.mem_cons, List.mem_append, List.mem_mapIdx, List.mem_map,
    Option.mem_toList] at h
  rcases h with rfl | ⟨i, inside, rfl⟩ | ⟨deadline, started, rfl⟩
  · exact .inl rfl
  · exact .inr (.inl ⟨i, _, rfl⟩)
  · exact .inr (.inr ⟨deadline, started, rfl⟩)

-- What a trial keeps of its schedule while it waits for its activation: how many reminders were
-- sent, and the timers of the delays before them. `sendReminders` takes this up where it was left,
-- however often it is run.
structure Nurtured (sent : Nat) (past : List Timestamp) (present : Option Timestamp) (run : Run) :
    Prop where
  workflowType : run.workflowType = TrialConversion.workflowType
  currentStep  : run.currentStep = "nurture"
  state        : run.state = initialState
  pending      : run.pending = entries past present
  executed     : run.memo.AllExecuted
  recorded     : ∀ i, run.memo.get? (reminderKey i) ≠ none ↔ i < sent

namespace Nurtured

variable {sent millis : Nat} {run : Run} {world : ω} {now : Timestamp}

theorem resumeId_delay (h : Nurtured sent past present run) :
    resumeId run.currentStep (delayKey i) = delayId i := by
  rw [h.currentStep, delayId]

theorem entry?_delay (h : Nurtured sent past present run) :
    run.entry? (delayId i) =
      ((past[i]?.map (.timer (delayId i) · true)).or
        (if i = past.length then present.map (.timer (delayId i) · false) else none)) := by
  have other : ¬ activation = delayId i := fun same => delayId_ne_activation same.symm
  rw [Run.entry?, h.pending, entries, List.find?_cons_of_neg (by simp [ResumeEntry.id, other]),
    List.find?_append, find?_timers]
  cases present
  case none => simp
  case some =>
    simp only [Option.toList_some, List.map_cons, List.map_nil, List.find?_singleton,
      ResumeEntry.id, delayId_inj, decide_eq_true_eq, eq_comm (a := i)]
    grind

theorem waitMillis_past (h : Nurtured sent past present run) (before : i < past.length) :
    run.waitMillis now (delayKey i) millis = (.ok none, run) := by
  have found : run.entry? (delayId i) = some (.timer (delayId i) past[i] true) := by
    rw [h.entry?_delay, List.getElem?_eq_getElem before]
    rfl
  exact Run.waitMillis_of_fired (h.resumeId_delay ▸ found)

theorem waitMillis_present (h : Nurtured sent past (some deadline) run)
    (early : ¬ deadline ≤ now) (millis : Nat) :
    run.waitMillis now (delayKey past.length) millis =
      (.ok (some (.timer (delayId past.length) deadline false)), run) := by
  have found : run.entry? (delayId past.length) =
      some (.timer (delayId past.length) deadline false) := by
    simp [h.entry?_delay]
  rw [← h.resumeId_delay] at found ⊢
  exact Run.waitMillis_of_early found early

theorem waitMillis_new (h : Nurtured sent past none run) (later : ¬ now.after millis ≤ now) :
    ∃ after, run.waitMillis now (delayKey past.length) millis =
        (.ok (some (.timer (delayId past.length) (now.after millis) false)), after) ∧
      Nurtured sent past (some (now.after millis)) after := by
  have missing : run.entry? (delayId past.length) = none := by
    simp [h.entry?_delay]
  rw [← h.resumeId_delay] at missing
  refine ⟨run.register (.timer (delayId past.length) (now.after millis) false), ?_, ?_⟩
  case refine_1 => rw [Run.waitMillis_of_missing missing later, h.resumeId_delay]
  case refine_2 => exact { h with pending := by simp [Run.register, h.pending, entries] }

theorem recalls (h : Nurtured sent past present run) (before : i < sent)
    (remind : Nat → ω → ω) (now : Timestamp) (world : ω) :
    ∃ output, (HandlerM.action (reminderKey i) (fun _ => true) (sending remind i)).Yields now
      run world output [] run world := by
  have ⟨value, known⟩ := Option.ne_none_iff_exists'.mp ((h.recorded i).mpr before)
  exact ⟨⟨value, false⟩, .recalled known rfl⟩

theorem sends (h : Nurtured sent past present run) (remind : Nat → ω → ω) (now : Timestamp)
    (world : ω) :
    ∃ output after,
      (HandlerM.action (reminderKey sent) (fun _ => true) (sending remind sent)).Yields now run
        world output [reminder remind sent] after (remind sent world) ∧
      Nurtured (sent + 1) past present after := by
  have new : run.memo.get? (reminderKey sent) = none := by
    by_contra known
    exact Nat.lt_irrefl sent ((h.recorded sent).mp known)
  refine ⟨_, _, .action new rfl, ?_⟩
  exact {
    h with
    executed   := (ActionMemo.grows_record new).executed h.executed
    recorded i := by
      change (run.memo.record (reminderKey sent) _).get? (reminderKey i) ≠ none ↔ _
      rw [ActionMemo.get?_record]
      by_cases last : sent = i
      case pos =>
        subst last
        simp [ActionMemo.entries_eq_none h.executed new]
      case neg =>
        rw [if_neg fun same => last (reminderKey_inj.mp same.1), h.recorded]
        omega
  }

end Nurtured

theorem sendReminders_cons {delay : Nat} {rest : List Nat} :
    sendReminders remind i (delay :: rest) = (do
      match ← HandlerM.waitMillis (delayKey i) delay with
      | some timer => return some timer
      | none =>
        let _ ← HandlerM.action (reminderKey i) (fun _ => true) (sending remind i)
        sendReminders remind (i + 1) rest) :=
  rfl

-- There is nothing to come of the delays before time goes on.
structure Ahead (now : Timestamp) (past : List Timestamp) (present : Option Timestamp) : Prop where
  bounded : past.length + present.toList.length ≤ delays.length
  early   : ∀ deadline ∈ present, ¬ deadline ≤ now
  later   : ∀ delay ∈ delays, ¬ now.after delay ≤ now

namespace Nurtured

variable {sent : Nat} {run : Run} {now : Timestamp} {rest : List Nat}

theorem walks (h : Nurtured sent past present run) (ahead : Ahead now past present)
    (schedule : delays.drop i = rest) (walked : i ≤ sent) (due : sent ≤ past.length)
    (remind : Nat → ω → ω) (world : ω) :
    ∃ timer after world', (sendReminders remind i rest).Yields now run world timer
        (reminders remind sent past.length) after world' ∧
      Nurtured past.length past (present.or (delays[past.length]?.map now.after)) after := by
  induction rest generalizing i sent run world
  case nil =>
    have all := List.drop_eq_nil_iff.mp schedule
    have := ahead.bounded
    obtain rfl : sent = past.length := by omega
    have ended : delays[past.length]? = none := List.getElem?_eq_none (by omega)
    rw [reminders_self, ended]
    exact ⟨none, run, world, .pure, by simpa using h⟩
  case cons delay rest ih =>
    have next : delays[i]? = some delay := by
      rw [← List.head?_drop, schedule]
      rfl
    have schedule : delays.drop (i + 1) = rest := by
      rw [← List.tail_drop, schedule]
      rfl
    rw [sendReminders_cons]
    by_cases passed : i < past.length
    case pos =>
      have polled : run.waitMillis now (delayKey i) delay = (.ok none, run) :=
        h.waitMillis_past passed
      rcases Nat.lt_or_eq_of_le walked with known | rfl
      case inl =>
        have ⟨_, recalled⟩ := h.recalls known remind now world
        have ⟨timer, after, world', walks, nurtured⟩ := ih h schedule known due world
        exact ⟨timer, after, world', (HandlerM.Yields.waitMillis polled).bind (recalled.bind walks),
          nurtured⟩
      case inr =>
        have ⟨_, _, sends, h⟩ := h.sends remind now world
        have ⟨timer, after, world', walks, nurtured⟩ := ih h schedule le_rfl passed (remind i world)
        rw [reminders_cons passed]
        exact ⟨timer, after, world', (HandlerM.Yields.waitMillis polled).bind (sends.bind walks),
          nurtured⟩
    case neg =>
      obtain rfl : i = past.length := by omega
      obtain rfl : sent = past.length := by omega
      rw [reminders_self, next]
      cases present
      case none =>
        have ⟨after, polled, h⟩ := h.waitMillis_new (ahead.later delay (List.mem_of_getElem? next))
        exact ⟨_, after, world, (HandlerM.Yields.waitMillis polled).bind .pure, h⟩
      case some deadline =>
        have polled := h.waitMillis_present (ahead.early deadline rfl) delay
        exact ⟨_, run, world, (HandlerM.Yields.waitMillis polled).bind .pure, h⟩

end Nurtured

structure Fresh (step : String) (run : Run) : Prop where
  workflowType : run.workflowType = TrialConversion.workflowType
  currentStep  : run.currentStep = step
  state        : run.state = initialState
  pending      : run.pending = []
  memo         : run.memo = .empty

namespace Nurtured

variable {sent : Nat} {run after : Run} {now : Timestamp} {id : String} {payload : Option Json}
  {fired : Bool}

theorem waitEvent (h : Nurtured sent past present run) :
    run.waitEvent "plan-activated" filter = (.ok (.event activation filter none), run) := by
  have found : run.entry? (resumeId run.currentStep "plan-activated") =
      some (.event activation filter none) := by
    rw [h.currentStep, Run.entry?, h.pending]
    rfl
  simp [Run.waitEvent, found]

theorem init (h : Fresh "nurture" run) :
    ∃ after, run.waitEvent "plan-activated" filter = (.ok (.event activation filter none), after) ∧
      Nurtured 0 [] none after := by
  refine ⟨run.register (.event activation filter none), ?_, ?_⟩
  case refine_1 =>
    rw [Run.waitEvent, h.currentStep, Run.entry?, h.pending]
    rfl
  case refine_2 =>
    exact {
      h with
      pending    := by simp [Run.register, h.pending, entries, timers]
      executed   := by
        change run.memo.AllExecuted
        rw [h.memo]
        exact ActionMemo.empty_allExecuted
      recorded i := by
        change run.memo.get? (reminderKey i) ≠ none ↔ i < 0
        simp [h.memo, ActionMemo.get?, ActionMemo.empty]
    }

theorem awaits_eq_false (other : id ≠ activation) :
    ∀ entry ∈ ResumeEntry.event activation filter none :: timers past, entry.awaits id = false := by
  intro entry hm
  rcases List.mem_cons.mp hm with rfl | hm
  · simp [ResumeEntry.awaits, ResumeEntry.id, other.symm]
  · obtain ⟨i, inside, rfl⟩ := List.mem_mapIdx.mp hm
    simp [ResumeEntry.awaits, ResumeEntry.isResolved]

theorem resolve (h : Nurtured sent past present run) (other : id ≠ activation)
    (resolved : run.resolve now id payload = (.ok fired, after)) :
    ∃ deadline, present = some deadline ∧
      (deadline ≤ now ∧ Nurtured sent (past ++ [deadline]) none after ∨
        ¬ deadline ≤ now ∧ after = run) := by
  have idle : ∀ entry ∈ .event activation filter none :: timers past, entry.awaits id = false :=
    awaits_eq_false other
  have before : (.event activation filter none :: timers past).find? (ResumeEntry.awaits id) =
      none :=
    List.find?_eq_none.mpr fun entry hm => by simp [idle entry hm]
  rw [Run.resolve, h.pending, entries, ← List.cons_append, List.find?_append, before,
    Option.none_or, updateFirst_append idle] at resolved
  cases present
  case none => cases resolved
  case some deadline =>
    refine ⟨deadline, rfl, ?_⟩
    cases awaited : (ResumeEntry.timer (delayId past.length) deadline false).awaits id <;>
      simp only [Option.toList_some, List.map_cons, List.map_nil, List.find?_singleton, updateFirst,
        awaited, Bool.false_eq_true, if_true, if_false] at resolved
    case false => cases resolved
    case true =>
      split at resolved <;> cases resolved
      case isFalse early => exact .inr ⟨early, rfl⟩
      case isTrue passed =>
        refine .inl ⟨passed, { h with pending := ?_ }⟩
        simp [entries, timers_concat, ResumeEntry.fire]

theorem deliver (h : Nurtured sent past present run) (now : Timestamp) (payload : Option Json) :
    ∃ rest, run.resolve now activation payload = (.ok true,
      { run with pending := .event activation filter (some (payload.getD .null)) :: rest }) := by
  rw [Run.resolve, h.pending]
  exact ⟨_, rfl⟩

end Nurtured

section Handler

variable {sent : Nat} {run next : Run} {now : Timestamp} {rest : List ResumeEntry} {payload : Json}
  {converted : Bool} {state : Json}

theorem nurture_waits
    (polled : run.waitEvent "plan-activated" filter = (.ok (.event activation filter none), next))
    (h : Nurtured sent past present next) (ahead : Ahead now past present)
    (due : sent ≤ past.length) (remind : Nat → ω → ω) (world : ω) :
    ∃ entry after world', (nurture remind).Yields now run world (.suspend entry)
        (reminders remind sent past.length) after world' ∧
      Nurtured past.length past (present.or (delays[past.length]?.map now.after)) after := by
  have ⟨timer, after, world', walks, nurtured⟩ :=
    h.walks ahead (i := 0) rfl (Nat.zero_le sent) due remind world
  have decided : ∃ entry, HandlerM.Yields now (match timer with
      | some timer => return StepOutcome.suspend timer
      | none       => return StepOutcome.suspend (.event activation filter none))
      after world' (.suspend entry) [] after world' := by
    cases timer <;> exact ⟨_, .pure⟩
  have ⟨entry, decided⟩ := decided
  have waits : (nurture remind).Yields now run world (.suspend entry)
      ([] ++ (reminders remind sent past.length ++ [])) after world' :=
    (HandlerM.Yields.waitEvent polled).bind (walks.bind decided)
  rw [List.append_nil] at waits
  exact ⟨entry, after, world', waits, nurtured⟩

def planned (payload : Json) : Json :=
  Json.ofMembers [("userId", .string "user-1"), ("planType", payload.field "planType")]

def conclusion (payload : Json) : Json :=
  Json.ofMembers [("userId", .string "user-1"), ("planType", payload.field "planType"),
    ("converted", .bool (payload.field "planType" = .string "paid"))]

def verdict (payload : Json) : String :=
  if payload.field "planType" = .string "paid" then "convert" else "expire"

theorem nurture_delivered (currentStep : run.currentStep = "nurture")
    (state : run.state = initialState)
    (pending : run.pending = .event activation filter (some payload) :: rest) (remind : Nat → ω → ω)
    (world : ω) :
    (nurture remind).Yields now run world (.advance (verdict payload)) []
      { run with state := planned payload } world := by
  have polled : run.waitEvent "plan-activated" filter =
      (.ok (.event activation filter (some payload)), run) := by
    rw [Run.waitEvent, currentStep, Run.entry?, pending]
    rfl
  have assigned : run.state.assign? "planType" (payload.field "planType") =
      some (planned payload) := by
    rw [state]
    exact Json.assign?_ofMembers
  exact (HandlerM.Yields.waitEvent polled).bind ((HandlerM.Yields.assign assigned).bind .pure)

theorem conclude_yields (h : run.state.assign? "converted" (.bool converted) = some state)
    (world : ω) :
    (conclude converted).Yields now run world .done [] { run with state } world :=
  (HandlerM.Yields.assign h).bind .pure

end Handler

end TrialConversion

end DurableWorkflow
