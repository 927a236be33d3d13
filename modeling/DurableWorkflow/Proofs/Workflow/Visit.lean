import DurableWorkflow.Proofs.Run.Entry
import DurableWorkflow.Proofs.Run.Timer
import DurableWorkflow.Proofs.Workflow.Event

namespace DurableWorkflow

namespace Exchange

variable {ω : Type} (exchange : Exchange ω)

-- The entry that an exchange registers, unless there is one of its id. A timer whose deadline is
-- not in the future has fired at once.
def fresh? : Option ResumeEntry :=
  let id := resumeId exchange.run.currentStep
  match exchange.request with
  | .waitMillis key millis =>
    let deadline := exchange.time.after millis
    some (.timer (id key) deadline (decide (deadline ≤ exchange.time)))
  | .waitEvent key filter => some (.event (id key) filter none)
  | .look | .action .. | .resolve .. | .setState _ | .putState _ | .pause _ => none

def asked? : Option String :=
  exchange.fresh?.map ResumeEntry.id

theorem exists_key {id : String} (h : exchange.asked? = some id) :
    ∃ key, id = resumeId exchange.run.currentStep key := by
  obtain ⟨now, request, run, world⟩ := exchange
  cases request <;> cases h
  all_goals exact ⟨_, rfl⟩

theorem asked?_of_waitMillis {key : String} {millis : Nat}
    (h : exchange.request = .waitMillis key millis) :
    exchange.asked? = some (resumeId exchange.run.currentStep key) := by
  rw [asked?, fresh?, h]
  rfl

end Exchange

namespace Run

variable {run : Run} {now : Timestamp} {id key : String}

def ids (run : Run) : List String :=
  run.pending.map ResumeEntry.id

theorem entry?_eq_none_iff : run.entry? id = none ↔ id ∉ run.ids := by
  simp [ entry?, ids]

theorem mem_ids {entry : ResumeEntry} (h : entry ∈ run.pending) : entry.id ∈ run.ids :=
  List.mem_map_of_mem h

theorem mem_ids_of_found {entry : ResumeEntry} (h : run.entry? id = some entry) : id ∈ run.ids := by
  by_contra missing
  rw [entry?_eq_none_iff.mpr missing] at h
  cases h

theorem ids_register {entry : ResumeEntry} : (run.register entry).ids = run.ids ++ [entry.id] := by
  simp [ids, register]

theorem ids_pollTimer {deadline : Timestamp} {fired : Bool} :
    (run.pollTimer now id deadline fired).2.ids = run.ids := by
  rw [pollTimer]
  split
  case isTrue  => exact map_updateFirst fun _ => ResumeEntry.id_fire
  case isFalse => rfl

theorem ids_waitMillis {millis : Nat} :
    (run.waitMillis now key millis).2.ids =
      run.ids ++ [resumeId run.currentStep key].filter (· ∉ run.ids) := by
  rw [waitMillis]
  rcases found : run.entry? (resumeId run.currentStep key) with _ | ⟨_ | _⟩
  case none => simp [ids_pollTimer, ids_register, ResumeEntry.id, entry?_eq_none_iff.mp found]
  all_goals simp [ids_pollTimer, mem_ids_of_found found]

theorem ids_waitEvent {filter : Json} :
    (run.waitEvent key filter).2.ids =
      run.ids ++ [resumeId run.currentStep key].filter (· ∉ run.ids) := by
  rw [waitEvent]
  rcases found : run.entry? (resumeId run.currentStep key) with _ | ⟨_ | _⟩
  case none => simp [ids_register, ResumeEntry.id, entry?_eq_none_iff.mp found]
  all_goals simp [mem_ids_of_found found]

theorem ids_resolve {payload : Option Json} : (run.resolve now id payload).2.ids = run.ids := by
  rw [resolve]
  split
  case h_1 => rfl
  case h_2 => exact map_updateFirst fun _ => ResumeEntry.id_deliver
  case h_3 =>
    split
    case isTrue  => exact map_updateFirst fun _ => ResumeEntry.id_fire
    case isFalse => rfl

end Run

section UpdateFirst

variable {list : List ResumeEntry} {p : ResumeEntry → Bool} {id : String} {deadline : Timestamp}
  {fired : Bool}

theorem timer_of_mem_fire (h : .timer id deadline fired ∈ updateFirst p ResumeEntry.fire list) :
    .timer id deadline fired ∈ list ∨
      ∃ before, list.find? p = some (.timer id deadline before) ∧ fired = true := by
  rcases mem_updateFirst h with h | ⟨_ | _, found, same⟩
  · exact .inl h
  · cases same
    exact .inr ⟨_, found, rfl⟩
  · cases same

theorem timer_of_mem_deliver {payload : Json}
    (h : .timer id deadline fired ∈ updateFirst p (ResumeEntry.deliver payload) list) :
    .timer id deadline fired ∈ list := by
  rcases mem_updateFirst h with h | ⟨_ | _, found, same⟩
  · exact h
  · cases same
    exact List.mem_of_find?_eq_some found
  · cases same

end UpdateFirst

inductive Exchange.Sets {ω : Type} (exchange : Exchange ω) : String → Timestamp → Bool → Prop
  | keeps {id : String} {deadline : Timestamp} {fired : Bool}
      (there : .timer id deadline fired ∈ exchange.run.pending) : Sets exchange id deadline fired
  | fires {id : String} {deadline : Timestamp}
      (there : .timer id deadline false ∈ exchange.run.pending)
      (due   : deadline ≤ exchange.time) : Sets exchange id deadline true
  | starts {key : String} {millis : Nat}
      (polls : exchange.request = .waitMillis key millis)
      (new   : resumeId exchange.run.currentStep key ∉ exchange.run.ids) :
      Sets exchange (resumeId exchange.run.currentStep key) (exchange.time.after millis)
        (decide (exchange.time.after millis ≤ exchange.time))

namespace Exchange

variable {ω : Type} {exchange : Exchange ω} {id : String} {deadline : Timestamp} {fired : Bool}

theorem Sets.of_pending (h : .timer id deadline fired ∈ exchange.after.pending)
    (same : exchange.after.pending = exchange.run.pending) : exchange.Sets id deadline fired :=
  .keeps (same ▸ h)

theorem Sets.of_fire {p : ResumeEntry → Bool}
    (due : ∀ id deadline, exchange.run.pending.find? p = some (.timer id deadline false) →
      deadline ≤ exchange.time)
    (h : .timer id deadline fired ∈ updateFirst p ResumeEntry.fire exchange.run.pending) :
    exchange.Sets id deadline fired := by
  obtain h | ⟨before, found, rfl⟩ := timer_of_mem_fire h
  · exact .keeps h
  · cases before
    case false => exact .fires (List.mem_of_find?_eq_some found) (due id deadline found)
    case true  => exact .keeps (List.mem_of_find?_eq_some found)

theorem sets_waitMillis {now : Timestamp} {run : Run} {world : ω} {key : String} {millis : Nat}
    (h : .timer id deadline fired ∈ (run.waitMillis now key millis).2.pending) :
    Sets ⟨now, .waitMillis key millis, run, world⟩ id deadline fired := by
  rw [Run.waitMillis] at h
  rcases found : run.entry? (resumeId run.currentStep key) with _ | ⟨_, set, fired'⟩ | _ <;>
    simp only [found] at h
  case none =>
    rw [Run.pollTimer_register found] at h
    rcases List.mem_append.mp h with h | h
    · exact .keeps h
    · cases List.mem_singleton.mp h
      exact .starts rfl (Run.entry?_eq_none_iff.mp found)
  case some.event => exact .keeps h
  case some.timer =>
    rw [Run.pollTimer] at h
    split at h
    case isFalse => exact .keeps h
    case isTrue past =>
      refine .of_fire (fun id deadline unfired => ?_) h
      cases found.symm.trans unfired
      simpa using past

theorem sets_resolve {now : Timestamp} {run : Run} {world : ω} {resumed : String}
    {payload : Option Json}
    (h : .timer id deadline fired ∈ (run.resolve now resumed payload).2.pending) :
    Sets ⟨now, .resolve resumed payload, run, world⟩ id deadline fired := by
  rw [Run.resolve] at h
  split at h
  case h_1 => exact .keeps h
  case h_2 => exact .keeps (timer_of_mem_deliver h)
  case h_3 set fired' found =>
    split at h
    case isFalse => exact .keeps h
    case isTrue past =>
      refine .of_fire (fun id deadline unfired => ?_) h
      cases found.symm.trans unfired
      exact past

theorem sets_after (exchange : Exchange ω)
    (h : .timer id deadline fired ∈ exchange.after.pending) : exchange.Sets id deadline fired := by
  obtain ⟨now, request, run, world⟩ := exchange
  cases request
  case waitMillis => exact sets_waitMillis h
  case resolve    => exact sets_resolve h
  case action     => exact .of_pending h Run.pending_performAction
  case setState   => exact .of_pending h Run.pending_setState
  case waitEvent key filter =>
    refine .keeps ?_
    change _ ∈ (run.waitEvent key filter).2.pending at h
    rw [Run.waitEvent] at h
    split at h
    case h_3 => simpa [Run.register] using h
    all_goals exact h
  all_goals exact .keeps h

theorem ids_after (exchange : Exchange ω) :
    exchange.after.ids =
      exchange.run.ids ++ exchange.asked?.toList.filter (· ∉ exchange.run.ids) := by
  obtain ⟨now, request, run, world⟩ := exchange
  have same {after : Run} (h : after.pending = run.pending) : after.ids = run.ids ++ [] := by
    rw [Run.ids, Run.ids, h, List.append_nil]
  cases request
  case waitMillis => exact Run.ids_waitMillis
  case waitEvent  => exact Run.ids_waitEvent
  case resolve    => exact Run.ids_resolve.trans (List.append_nil _).symm
  case action     => exact same Run.pending_performAction
  case setState   => exact same Run.pending_setState
  all_goals exact same rfl

theorem mem_ids_after_iff :
    id ∈ exchange.after.ids ↔ id ∈ exchange.run.ids ∨ exchange.asked? = some id := by
  by_cases there : id ∈ exchange.run.ids <;> simp [ids_after, there]

theorem after_of_new {entry : ResumeEntry} (h : exchange.fresh? = some entry)
    (new : entry.id ∉ exchange.run.ids) : exchange.after = exchange.run.register entry := by
  have missing := Run.entry?_eq_none_iff.mpr new
  obtain ⟨now, request, run, world⟩ := exchange
  cases request <;> cases h
  case waitMillis key millis =>
    change (run.waitMillis now key millis).2 = _
    change run.entry? (resumeId run.currentStep key) = none at missing
    rw [Run.waitMillis, missing]
    exact Run.pollTimer_register missing
  case waitEvent key filter =>
    change (run.waitEvent key filter).2 = _
    change run.entry? (resumeId run.currentStep key) = none at missing
    rw [Run.waitEvent, missing]

end Exchange

-- The time that a timer has spent in a visit. It was started when its id was first asked for, and
-- had the same deadline ever since; if it has fired, the clock has shown its deadline.
structure Vigil {ω : Type} (earlier : List (Exchange ω)) (first : Exchange ω)
    (since : List (Exchange ω)) (id : String) (deadline : Timestamp) (fired : Bool) : Prop where
  started : ∃ key millis, first.request = .waitMillis key millis ∧
    id = resumeId first.run.currentStep key ∧ deadline = first.time.after millis
  unasked : ∀ exchange ∈ earlier, exchange.asked? ≠ some id
  steady  : ∀ exchange ∈ since, ∃ fired, .timer id deadline fired ∈ exchange.run.pending
  due     : fired → ∃ exchange ∈ first :: since, deadline ≤ exchange.time

def Run.Vigilant {ω : Type} (visit : List (Exchange ω)) (run : Run) : Prop :=
  ∀ id deadline fired, .timer id deadline fired ∈ run.pending →
    ∃ earlier first since, visit = earlier ++ first :: since ∧
      Vigil earlier first since id deadline fired

-- The entries of a run belong to its present visit: each of them was asked for since the run came
-- to its step, and they are all dropped when it leaves.
structure Accounts {ω : Type} (visit : List (Exchange ω)) (run : Run) : Prop where
  position : ∀ exchange ∈ visit, exchange.run.currentStep = run.currentStep
  opens    : ∀ exchange ∈ visit.head?, exchange.run.pending = []
  distinct : run.Distinct
  asked    : ∀ id ∈ run.ids, ∃ exchange ∈ visit, exchange.asked? = some id
  kept     : run.status.isClosed = false → ∀ exchange ∈ visit, ∀ id, exchange.asked? = some id →
    id ∈ run.ids
  -- A closed run would start a timer once more that was dropped when it was closed.
  timers   : (∀ exchange ∈ visit, exchange.run.status.isClosed = false) → run.Vigilant visit

namespace Accounts

variable {ω : Type} {visit : List (Exchange ω)} {run after : Run} {exchange : Exchange ω}
  {entry : ResumeEntry}

theorem start (idle : run.pending = []) : Accounts ([] : List (Exchange ω)) run where
  position := by simp
  opens    := by simp
  distinct := by simp [Run.Distinct, idle]
  asked    := by simp [Run.ids, idle]
  kept     := by simp
  timers   := by simp [Run.Vigilant, idle]

theorem idle (h : Accounts ([] : List (Exchange ω)) run) : run.pending = [] := by
  refine List.eq_nil_iff_forall_not_mem.mpr fun entry hm => ?_
  have ⟨_, made, _⟩ := h.asked entry.id (Run.mem_ids hm)
  cases made

theorem owned (h : Accounts visit run) (hm : entry ∈ run.pending) :
    ∃ key, entry.id = resumeId run.currentStep key := by
  have ⟨exchange, hv, asked⟩ := h.asked entry.id (Run.mem_ids hm)
  rw [← h.position exchange hv]
  exact exchange.exists_key asked

theorem held (h : Accounts visit run) (between : run.Held after) : Accounts visit after where
  position exchange hm := (h.position exchange hm).trans between.currentStep.symm
  opens    := h.opens
  distinct := (between.dropped.map _).nodup h.distinct
  asked id hm := h.asked id ((between.dropped.map _).subset hm)
  kept live exchange hm id asked := by
    rw [Run.ids, between.kept live]
    exact h.kept (between.live live) exchange hm id asked
  timers live id deadline fired hm :=
    h.timers live id deadline fired (between.dropped.subset hm)

theorem opens_append (h : Accounts visit exchange.run) :
    ∀ first ∈ (visit ++ [exchange]).head?, first.run.pending = [] := by
  cases visit
  case nil =>
    rintro _ ⟨⟩
    exact h.idle
  case cons first rest => exact h.opens

theorem timers_append (h : Accounts visit exchange.run)
    (live : ∀ made ∈ visit ++ [exchange], made.run.status.isClosed = false) :
    exchange.after.Vigilant (visit ++ [exchange]) := by
  intro id deadline fired hm
  have ⟨live, here⟩ := List.forall_mem_append.mp live
  cases exchange.sets_after hm with
  | keeps there =>
    obtain ⟨earlier, first, since, rfl, vigil⟩ := h.timers live id deadline fired there
    refine ⟨earlier, first, since ++ [exchange], by simp, vigil.started, vigil.unasked, ?_, ?_⟩
    · exact List.forall_mem_append.mpr ⟨vigil.steady, List.forall_mem_singleton.mpr ⟨fired, there⟩⟩
    · intro fired
      have ⟨shown, hm, due⟩ := vigil.due fired
      exact ⟨shown, List.mem_append_left [exchange] hm, due⟩
  | fires there due =>
    obtain ⟨earlier, first, since, rfl, vigil⟩ := h.timers live id deadline false there
    refine ⟨earlier, first, since ++ [exchange], by simp, vigil.started, vigil.unasked, ?_, ?_⟩
    · exact List.forall_mem_append.mpr ⟨vigil.steady, List.forall_mem_singleton.mpr ⟨false, there⟩⟩
    · exact fun _ => ⟨exchange, by simp, due⟩
  | @starts key millis polls new =>
    refine ⟨visit, exchange, [], rfl, ⟨key, millis, polls, rfl, rfl⟩, ?_, List.forall_mem_nil _, ?_⟩
    · intro earlier hm asked
      exact new (h.kept (here exchange (List.mem_singleton_self _)) earlier hm _ asked)
    · intro past
      exact ⟨exchange, List.mem_singleton_self _, by simpa using past⟩

theorem exchange_after (h : Accounts visit exchange.run) :
    Accounts (visit ++ [exchange]) exchange.after := by
  have served : exchange.run.Served exchange.after := exchange.request.answer_served
  refine {
    opens    := h.opens_append
    distinct := exchange.calmer.distinct h.distinct
    position := ?position
    asked    := ?asked
    kept     := ?kept
    timers   := h.timers_append
  }
  case position =>
    rw [served.currentStep]
    exact List.forall_mem_append.mpr ⟨h.position, List.forall_mem_singleton.mpr rfl⟩
  case asked =>
    intro id hm
    rcases Exchange.mem_ids_after_iff.mp hm with hm | asked
    · have ⟨made, hv, asked⟩ := h.asked id hm
      exact ⟨made, List.mem_append_left _ hv, asked⟩
    · exact ⟨exchange, by simp, asked⟩
  case kept =>
    intro live made hm id asked
    rw [served.status] at live
    apply Exchange.mem_ids_after_iff.mpr
    rcases List.mem_append.mp hm with hm | hm
    · exact .inl (h.kept live made hm id asked)
    · cases List.mem_singleton.mp hm
      exact .inr asked

theorem leave_pending (h : Accounts visit run) (next : Option String) :
    (run.leave next).pending = [] := by
  have none_stays : (run.leaveStep run.currentStep).pending = [] := by
    refine List.filter_eq_nil_iff.mpr fun entry hm => ?_
    have ⟨key, hid⟩ := h.owned hm
    simp [ResumeEntry.belongsTo_of_id hid]
  cases next <;> exact none_stays

theorem event_after {event : Event ω} (h : Accounts visit event.run) :
    Accounts (event.onto visit) event.after := by
  cases event
  case exchange     => exact exchange_after h
  case leave _ next => exact .start (h.leave_pending next)

end Accounts

namespace Chronicle

variable {ω : Type} {first last : Run} {history before after : List (Event ω)} {event : Event ω}

theorem fired (c : Chronicle first history last) {id : String} {deadline : Timestamp}
    (h : .timer id deadline true ∈ last.pending) :
    .timer id deadline true ∈ first.pending ∨
      ∃ exchange, .exchange exchange ∈ history ∧ deadline ≤ exchange.time := by
  induction c
  case nil between => exact .inl (between.dropped.subset h)
  case cons event rest between _ ih =>
    rcases ih h with h | ⟨shown, hm, due⟩
    case inr => exact .inr ⟨shown, List.mem_cons_of_mem _ hm, due⟩
    case inl =>
      cases event with
      | leave run next =>
        have hm : .timer id deadline true ∈ run.pending := by
          cases next <;> exact (List.mem_filter.mp h).1
        exact .inl (between.dropped.subset hm)
      | exchange made =>
        generalize hf : true = fired at h
        cases made.sets_after h with
        | keeps there => exact .inl (between.dropped.subset (hf ▸ there))
        | fires _ due => exact .inr ⟨made, List.mem_cons_self, due⟩
        | starts      => exact .inr ⟨made, List.mem_cons_self, of_decide_eq_true hf.symm⟩

theorem accounts_visit (c : Chronicle first history last) (idle : first.pending = []) :
    Accounts (Event.visit history) last :=
  along (P := Accounts) Accounts.held Accounts.event_after c (.start idle)

theorem accounts_event (c : Chronicle first (before ++ event :: after) last)
    (idle : first.pending = []) : Accounts (Event.visit before) event.run :=
  along_event (P := Accounts) Accounts.held Accounts.event_after c (.start idle)

end Chronicle

end DurableWorkflow
