import DurableWorkflow.Proofs.Workflow.Upkeep

namespace DurableWorkflow

section UpdateFirst

variable {α β : Type} [DecidableEq β] {p : α → Bool} {f : α → α} {list : List α} {a b : α} {i : Nat}

theorem getElem?_updateFirst_or (h : list[i]? = some a) :
    (updateFirst p f list)[i]? = some a ∨ p a ∧ (updateFirst p f list)[i]? = some (f a) := by
  induction list generalizing i
  case nil => cases h
  case cons c rest ih =>
    rw [updateFirst]
    cases i <;> simp only [List.getElem?_cons_zero, List.getElem?_cons_succ] at h
    case zero =>
      cases h
      split
      case isTrue hc => exact .inr ⟨hc, rfl⟩
      case isFalse   => exact .inl rfl
    case succ =>
      split
      case isTrue  => exact .inl h
      case isFalse => exact ih h

theorem getElem?_updateFirst_of_find? {key : α → β} (distinct : (list.map key).Nodup)
    (found : list.find? p = some b) (h : list[i]? = some a) :
    (updateFirst p f list)[i]? = some (if key a = key b then f a else a) := by
  induction list generalizing i
  case nil => cases h
  case cons c rest ih =>
    have ⟨outside, distinct⟩ := List.nodup_cons.mp distinct
    rw [updateFirst]
    cases hc : p c <;> simp only [List.find?_cons, hc] at found <;>
      cases i <;> simp only [List.getElem?_cons_zero, List.getElem?_cons_succ] at h
    case true.zero =>
      cases found
      cases h
      simp
    case true.succ =>
      cases found
      have other : key a ≠ key b := fun same =>
        outside (List.mem_map.mpr ⟨a, List.mem_of_getElem? h, same⟩)
      simpa [other] using h
    case false.zero =>
      cases h
      have other : key a ≠ key b := fun same =>
        outside (List.mem_map.mpr ⟨b, List.mem_of_find?_eq_some found, same.symm⟩)
      simp [other]
    case false.succ => simpa using ih distinct found h

end UpdateFirst

namespace ResumeEntry

theorem awaits_iff {id : String} {entry : ResumeEntry} :
    entry.awaits id ↔ entry.id = id ∧ entry.isResolved = false := by
  simp [awaits]

-- What an entry may become while it is resolved with some payloads. There is one of them at most,
-- and none if the entry is resolved already. A timer may also fire without being resolved.
inductive Becomes : List Json → ResumeEntry → ResumeEntry → Prop
  | timer {payloads : List Json} {id : String} {deadline : Timestamp} {fired fired' : Bool}
      (stays : fired → fired')
      (once : payloads = [] ∨ payloads.length = 1 ∧ fired = false ∧ fired' = true) :
      Becomes payloads (.timer id deadline fired) (.timer id deadline fired')
  | event {payloads : List Json} {id : String} {filter : Json} {delivered delivered' : Option Json}
      (once : delivered'.toList = delivered.toList ++ payloads) :
      Becomes payloads (.event id filter delivered) (.event id filter delivered')

namespace Becomes

variable {first second third entry : ResumeEntry} {payloads payloads' : List Json}

theorem refl (entry : ResumeEntry) : Becomes [] entry entry := by
  cases entry
  case timer => exact .timer (fun h => h) (.inl rfl)
  case event => exact .event (List.append_nil _).symm

theorem trans (h₁ : Becomes payloads first second) (h₂ : Becomes payloads' second third) :
    Becomes (payloads ++ payloads') first third := by
  cases h₁ with
  | event once => cases h₂ with
    | event once' => exact .event (by rw [once', once, List.append_assoc])
  | timer stays once => cases h₂ with
    | timer stays' once' =>
      refine .timer (stays' ∘ stays) ?_
      grind

theorem id_eq (h : Becomes payloads first second) : second.id = first.id := by
  cases h <;> rfl

theorem eq_of_event {id : String} {filter : Json} {delivered : Option Json}
    (h : Becomes payloads (.event id filter delivered) entry) :
    entry = .event id filter (delivered.toList ++ payloads).head? := by
  cases h with
  | event once =>
    rw [← once, Option.head?_toList]

theorem deliver (payload : Json) (unresolved : entry.isResolved = false) :
    ∃ payloads, Becomes payloads entry (entry.deliver payload) := by
  cases entry
  case timer => exact ⟨[], .refl _⟩
  case event delivered =>
    obtain rfl : delivered = none := by simpa [isResolved] using unresolved
    exact ⟨[payload], .event rfl⟩

theorem fire : Becomes [] entry entry.fire := by
  cases entry
  case timer => exact .timer (fun _ => rfl) (.inl rfl)
  case event => exact .refl _

end Becomes

end ResumeEntry

namespace Exchange

variable {ω : Type} (exchange : Exchange ω)

def resolved (id : String) : List Json :=
  match exchange.request with
  | .resolve other payload =>
    if other = id ∧ (exchange.run.resolve exchange.time other payload).1.toOption = some true then
      [payload.getD .null]
    else []
  | .look | .action .. | .waitMillis .. | .waitEvent .. | .setState _ | .putState _ | .pause _ => []

end Exchange

namespace Run

variable {run after : Run} {now : Timestamp} {id : String} {payload : Option Json}
  {reply : Except Error Bool} {i : Nat} {entry : ResumeEntry}

inductive Resolution (now : Timestamp) (id : String) (payload : Option Json) (run : Run) :
    Except Error Bool → Run → Prop
  | unknown (none : run.pending.find? (ResumeEntry.awaits id) = none) :
    Resolution now id payload run (.error (.unknownResume run.name id)) run
  | delivered {filter : Json}
      (found : run.pending.find? (ResumeEntry.awaits id) = some (.event id filter none)) :
    Resolution now id payload run (.ok true) (run.deliver id payload)
  | fired {deadline : Timestamp}
      (found : run.pending.find? (ResumeEntry.awaits id) = some (.timer id deadline false))
      (due : deadline ≤ now) :
    Resolution now id payload run (.ok true)
      { run with pending := updateFirst (ResumeEntry.awaits id) ResumeEntry.fire run.pending }
  | early {deadline : Timestamp}
      (found : run.pending.find? (ResumeEntry.awaits id) = some (.timer id deadline false))
      (ahead : ¬ deadline ≤ now) :
    Resolution now id payload run (.ok false) run

theorem resolution (h : run.resolve now id payload = (reply, after)) :
    run.Resolution now id payload reply after := by
  rw [resolve] at h
  rcases found : run.pending.find? (ResumeEntry.awaits id) with
    _ | ⟨other, deadline, fired⟩ | ⟨other, filter, delivered⟩ <;> simp only [found] at h
  case none =>
    cases h
    exact .unknown found
  case some.timer =>
    obtain ⟨rfl, rfl⟩ := ResumeEntry.awaits_iff.mp (List.find?_some found)
    split at h
    case isTrue due =>
      cases h
      exact .fired found due
    case isFalse ahead =>
      cases h
      exact .early found ahead
  case some.event =>
    obtain ⟨rfl, unresolved⟩ := ResumeEntry.awaits_iff.mp (List.find?_some found)
    obtain rfl : delivered = none := by simpa [ResumeEntry.isResolved] using unresolved
    cases h
    exact .delivered found

def Retains (i : Nat) (entry : ResumeEntry) (payloads : List Json) (after : Run) : Prop :=
  ∃ entry', after.pending[i]? = some entry' ∧ entry.Becomes payloads entry'

namespace Retains

theorem of_pending (h : run.pending[i]? = some entry)
    (same : after.pending = run.pending) : Retains i entry [] after :=
  ⟨entry, same ▸ h, .refl entry⟩

theorem of_same {payloads : List Json} (h : Retains i entry payloads run)
    (same : after.pending = run.pending) : Retains i entry payloads after := by
  rwa [Retains, same]

theorem register {added : ResumeEntry} (h : run.pending[i]? = some entry) :
    Retains i entry [] (run.register added) :=
  ⟨entry, List.getElem?_append_left (List.getElem?_eq_some_iff.mp h).1 ▸ h, .refl entry⟩

theorem fire {p : ResumeEntry → Bool} (h : run.pending[i]? = some entry) :
    Retains i entry [] { run with pending := updateFirst p ResumeEntry.fire run.pending } :=
  (getElem?_updateFirst_or h).elim (⟨entry, ·, .refl entry⟩) (⟨entry.fire, ·.2, .fire⟩)

theorem waitMillis {key : String} {millis : Nat} (h : run.pending[i]? = some entry) :
    Retains i entry [] (run.waitMillis now key millis).2 := by
  rw [Run.waitMillis]
  rcases new : run.entry? (resumeId run.currentStep key) with _ | ⟨_, deadline, fired⟩ | _
  case none =>
    dsimp only
    rw [pollTimer_register new]
    exact register h
  case some.timer =>
    dsimp only
    rw [pollTimer]
    split
    case isTrue  => exact fire h
    case isFalse => exact of_pending h rfl
  case some.event => exact of_pending h rfl

theorem waitEvent {key : String} {filter : Json} (h : run.pending[i]? = some entry) :
    Retains i entry [] (run.waitEvent key filter).2 := by
  rw [Run.waitEvent]
  rcases run.entry? (resumeId run.currentStep key) with _ | ⟨_ | _⟩
  case none => exact register h
  all_goals exact of_pending h rfl

end Retains

end Run

namespace Exchange

variable {ω : Type} {exchange : Exchange ω} {i : Nat} {entry : ResumeEntry}

theorem retains_resolve {id : String} {payload : Option Json}
    (asks : exchange.request = .resolve id payload) (distinct : exchange.run.Distinct)
    (h : exchange.run.pending[i]? = some entry) :
    Run.Retains i entry (exchange.resolved entry.id) exchange.after := by
  obtain ⟨now, request, run, world⟩ := exchange
  cases asks
  rcases resolved : run.resolve now id payload with ⟨reply, after⟩
  simp only [Exchange.resolved, Exchange.after, Request.answer, resolved]
  -- The entry is the one of the id, or it stays as it is.
  have changed {f : ResumeEntry → ResumeEntry} {found : ResumeEntry}
      (hf : run.pending.find? (ResumeEntry.awaits id) = some found) :
      entry = found ∧ (updateFirst (ResumeEntry.awaits id) f run.pending)[i]? = some (f entry) ∨
        entry.id ≠ found.id ∧
          (updateFirst (ResumeEntry.awaits id) f run.pending)[i]? = some entry := by
    have there := getElem?_updateFirst_of_find? (f := f) distinct hf h
    by_cases same : entry.id = found.id
    case pos =>
      rw [if_pos same] at there
      exact .inl ⟨List.inj_on_of_nodup_map distinct (List.mem_of_getElem? h)
        (List.mem_of_find?_eq_some hf) same, there⟩
    case neg =>
      rw [if_neg same] at there
      exact .inr ⟨same, there⟩
  cases Run.resolution resolved with
  | unknown | early =>
    rw [if_neg (by rintro ⟨_, ⟨⟩⟩)]
    exact .of_pending h rfl
  | delivered found =>
    rcases changed found with ⟨rfl, there⟩ | ⟨other, there⟩
    · rw [if_pos ⟨rfl, rfl⟩]
      exact ⟨_, there, .event rfl⟩
    · rw [if_neg fun same => other same.1.symm]
      exact ⟨entry, there, .refl entry⟩
  | fired found due =>
    rcases changed found with ⟨rfl, there⟩ | ⟨other, there⟩
    · rw [if_pos ⟨rfl, rfl⟩]
      exact ⟨_, there, .timer (fun _ => rfl) (.inr ⟨rfl, rfl, rfl⟩)⟩
    · rw [if_neg fun same => other same.1.symm]
      exact ⟨entry, there, .refl entry⟩

theorem retains_unresolved (other : ∀ id payload, exchange.request ≠ .resolve id payload)
    (h : exchange.run.pending[i]? = some entry) : Run.Retains i entry [] exchange.after := by
  cases asks : exchange.request
  case resolve id payload => exact absurd asks (other id payload)
  all_goals
    obtain ⟨now, request, run, world⟩ := exchange
    cases asks
  case action     => exact .of_pending h Run.pending_performAction
  case setState   => exact .of_pending h Run.pending_setState
  case waitMillis => exact .waitMillis h
  case waitEvent  => exact .waitEvent h
  all_goals exact .of_pending h rfl

theorem retains_after (distinct : exchange.run.Distinct)
    (h : exchange.run.pending[i]? = some entry) :
    Run.Retains i entry (exchange.resolved entry.id) exchange.after := by
  cases asks : exchange.request
  case resolve id payload => exact retains_resolve asks distinct h
  all_goals
    have kept := retains_unresolved (by simp [asks]) h
    rwa [resolved, asks]

theorem exists_retains (h : exchange.run.pending[i]? = some entry) :
    ∃ payloads, Run.Retains i entry payloads exchange.after := by
  by_cases other : ∀ id payload, exchange.request ≠ .resolve id payload
  case pos => exact ⟨[], retains_unresolved other h⟩
  case neg =>
    simp only [not_forall, not_not] at other
    obtain ⟨id, payload, asks⟩ := other
    obtain ⟨now, request, run, world⟩ := exchange
    cases asks
    rcases resolved : run.resolve now id payload with ⟨reply, after⟩
    simp only [Exchange.after, Request.answer, resolved]
    cases Run.resolution resolved with
    | unknown | early => exact ⟨[], .of_pending h rfl⟩
    | fired           => exact ⟨[], .fire h⟩
    | delivered       =>
      rcases getElem?_updateFirst_or h with there | ⟨awaits, there⟩
      · exact ⟨[], entry, there, .refl entry⟩
      · obtain ⟨_, unresolved⟩ := ResumeEntry.awaits_iff.mp awaits
        obtain ⟨payloads, becomes⟩ := ResumeEntry.Becomes.deliver (payload.getD .null) unresolved
        exact ⟨payloads, _, there, becomes⟩

end Exchange

theorem Run.Retains.exchange_after {ω : Type} {exchange : Exchange ω} {i : Nat}
    {entry : ResumeEntry} {payloads : List Json} (h : Run.Retains i entry payloads exchange.run)
    (distinct : exchange.run.Distinct) :
    Run.Retains i entry (payloads ++ exchange.resolved entry.id) exchange.after := by
  have ⟨entry', there, becomes⟩ := h
  have ⟨entry'', there', becomes'⟩ := Exchange.retains_after distinct there
  rw [becomes.id_eq] at becomes'
  exact ⟨entry'', there', becomes.trans becomes'⟩

-- The entries that there were before an exchange of the visit and after it are there still, as they
-- were resolved since then.
structure Run.Steady {ω : Type} (visit : List (Exchange ω)) (run : Run) : Prop where
  before : ∀ earlier made later, visit = earlier ++ made :: later →
    ∀ i entry, made.run.pending[i]? = some entry →
      Run.Retains i entry ((made :: later).flatMap (·.resolved entry.id)) run
  after : ∀ earlier made later, visit = earlier ++ made :: later →
    ∀ i entry, made.after.pending[i]? = some entry →
      Run.Retains i entry (later.flatMap (·.resolved entry.id)) run

structure Sojourn {ω : Type} (visit : List (Exchange ω)) (run : Run) : Prop where
  accounts : Accounts visit run
  steady   : run.Steady visit

namespace Sojourn

variable {ω : Type} {visit : List (Exchange ω)} {run after : Run} {event : Event ω}

theorem start (accounts : Accounts ([] : List (Exchange ω)) run) :
    Sojourn ([] : List (Exchange ω)) run where
  accounts
  steady := {
    before := fun earlier _ _ cut => by cases earlier <;> cases cut
    after  := fun earlier _ _ cut => by cases earlier <;> cases cut
  }

theorem held (h : Sojourn visit run) (between : run.Held after)
    (same : after.pending = run.pending) : Sojourn visit after where
  accounts := h.accounts.held between
  steady   := {
    before := fun earlier made later cut i entry there =>
      (h.steady.before earlier made later cut i entry there).of_same same
    after  := fun earlier made later cut i entry there =>
      (h.steady.after earlier made later cut i entry there).of_same same
  }

theorem exchange_after {last : Exchange ω} (h : Sojourn visit last.run) :
    Sojourn (visit ++ [last]) last.after := by
  have onto {i : Nat} {entry : ResumeEntry} {later : List (Exchange ω)}
      (retained : Run.Retains i entry (later.flatMap (·.resolved entry.id)) last.run) :
      Run.Retains i entry ((later ++ [last]).flatMap (·.resolved entry.id)) last.after := by
    rw [List.flatMap_append, List.flatMap_singleton]
    exact retained.exchange_after h.accounts.distinct
  refine { accounts := h.accounts.exchange_after, steady := { before := ?before, after := ?after } }
  case before =>
    intro earlier made later cut i entry there
    rcases concat_eq_append_cons cut with ⟨rfl, rfl, rfl⟩ | ⟨later, rfl, within⟩
    · have here : Run.Retains i entry (([] : List (Exchange ω)).flatMap (·.resolved entry.id))
        made.run := .of_pending there rfl
      exact onto here
    · exact onto (h.steady.before earlier made later within i entry there)
  case after =>
    intro earlier made later cut i entry there
    rcases concat_eq_append_cons cut with ⟨rfl, rfl, rfl⟩ | ⟨later, rfl, within⟩
    · exact .of_pending there rfl
    · exact onto (h.steady.after earlier made later within i entry there)

theorem event_after (h : Sojourn visit event.run) : Sojourn (event.onto visit) event.after := by
  cases event
  case exchange => exact exchange_after h
  case leave    => exact .start h.accounts.event_after

theorem upheld {ω : Type} : Upheld (Sojourn (ω := ω)) where
  held          := held
  idle h between := .start (h.accounts.held between)
  event         := event_after

end Sojourn

abbrev Sojourns {ω : Type} : List (Exchange ω) → List (Event ω) → Run → Prop :=
  Upkeep Sojourn

theorem Operation.history_sojourns {ω : Type} {run : Run} {world : ω} {visit : List (Exchange ω)}
    {operations : List (Timestamp × Operation ω)}
    (kept : ∀ occasion ∈ operations, occasion.2.isCancel = false) (h : Sojourn visit run) :
    Sojourns visit (history operations run world) (performAll operations run world).1 :=
  Sojourn.upheld.history kept h

namespace Run

variable {run : Run} {now : Timestamp} {id key : String}

structure Refuses (run : Run) : Prop where
  unknown : ∀ now id payload, (∃ error, (run.resolve now id payload).1 = .error error) ↔
    ∀ entry ∈ run.pending, entry.id = id → entry.isResolved
  named : ∀ now id payload error, (run.resolve now id payload).1 = .error error →
    error = .unknownResume run.name id
  resolve : ∀ now id payload, (run.resolve now id payload).1 ≠ .ok true →
    (run.resolve now id payload).2 = run
  waitMillis : ∀ now key millis error, (run.waitMillis now key millis).1 = .error error →
    error = run.conflict (resumeId run.currentStep key) ∧ (run.waitMillis now key millis).2 = run
  waitNanos : ∀ now key nanos error, (run.waitNanos now key nanos).1 = .error error →
    error = run.conflict (resumeId run.currentStep key) ∧ (run.waitNanos now key nanos).2 = run
  waitEvent : ∀ key filter error, (run.waitEvent key filter).1 = .error error →
    error = run.conflict (resumeId run.currentStep key) ∧ (run.waitEvent key filter).2 = run

theorem refused_waitMillis {millis : Nat} {error : Error}
    (h : (run.waitMillis now key millis).1 = .error error) :
    error = run.conflict (resumeId run.currentStep key) ∧
      (run.waitMillis now key millis).2 = run := by
  have polled {run : Run} {id : String} {deadline : Timestamp} {fired : Bool} :
      (run.pollTimer now id deadline fired).1 ≠ .error error := by
    rw [pollTimer]
    split <;> rintro ⟨⟩
  rw [Run.waitMillis] at h ⊢
  rcases found : run.entry? (resumeId run.currentStep key) with _ | ⟨_ | _⟩ <;>
    simp only [found] at h ⊢
  case some.event =>
    cases h
    exact ⟨rfl, trivial⟩
  all_goals exact absurd h polled

theorem refused_waitEvent {filter : Json} {error : Error}
    (h : (run.waitEvent key filter).1 = .error error) :
    error = run.conflict (resumeId run.currentStep key) ∧ (run.waitEvent key filter).2 = run := by
  rw [Run.waitEvent] at h ⊢
  rcases found : run.entry? (resumeId run.currentStep key) with _ | ⟨_ | _⟩ <;>
    simp only [found] at h ⊢
  case some.timer =>
    cases h
    exact ⟨rfl, trivial⟩
  all_goals cases h

theorem Resolution.error_iff {payload : Option Json} {reply : Except Error Bool} {after : Run}
    (h : run.Resolution now id payload reply after) :
    (∃ error, reply = .error error) ↔ ∀ entry ∈ run.pending, entry.id = id → entry.isResolved := by
  have outstanding {entry : ResumeEntry}
      (found : run.pending.find? (ResumeEntry.awaits id) = some entry) :
      ¬ ∀ entry ∈ run.pending, entry.id = id → entry.isResolved := by
    intro all
    have ⟨named, unresolved⟩ := ResumeEntry.awaits_iff.mp (List.find?_some found)
    have resolved := all entry (List.mem_of_find?_eq_some found) named
    rw [unresolved] at resolved
    cases resolved
  cases h with
  | unknown none =>
    refine ⟨fun _ entry hm named => ?_, fun _ => ⟨_, rfl⟩⟩
    by_contra unresolved
    have awaits := ResumeEntry.awaits_iff.mpr ⟨named, by simpa using unresolved⟩
    exact List.find?_eq_none.mp none entry hm awaits
  | delivered found | fired found | early found =>
    exact ⟨fun h => h.elim nofun, fun all => absurd all (outstanding found)⟩

theorem refuses (run : Run) : run.Refuses where
  unknown _ _ _      := (Run.resolution rfl).error_iff
  named now id payload error h := by
    rcases resolved : run.resolve now id payload with ⟨reply, after⟩
    rw [resolved] at h
    subst h
    cases Run.resolution resolved
    rfl
  resolve now id payload refused := by
    rcases resolved : run.resolve now id payload with ⟨reply, after⟩
    rw [resolved] at refused
    cases Run.resolution resolved <;> first | rfl | exact absurd rfl refused
  waitMillis _ _ _ _ := refused_waitMillis
  waitNanos _ _ _ _  := refused_waitMillis
  waitEvent _ _ _    := refused_waitEvent

theorem entry?_of_mem (distinct : run.Distinct) {entry : ResumeEntry} (hm : entry ∈ run.pending) :
    run.entry? entry.id = some entry := by
  cases found : run.entry? entry.id
  case none => exact absurd (mem_ids hm) (entry?_eq_none_iff.mp found)
  case some other =>
    have named : other.id = entry.id := of_decide_eq_true (List.find?_some found :)
    exact congrArg some
      (List.inj_on_of_nodup_map distinct (List.mem_of_find?_eq_some found) hm named)

end Run

-- Whoever waits again for an event of the visit is given what was registered, with the payload that
-- it was resolved with since.
def Exchange.Recalls {ω : Type} (visit : List (Exchange ω)) (exchange : Exchange ω) : Prop :=
  ∀ key other, exchange.request = .waitEvent key other →
    ∀ earlier made later, visit = earlier ++ made :: later →
      let id := resumeId exchange.run.currentStep key
      ∀ (i : Nat) filter delivered, made.after.pending[i]? = some (.event id filter delivered) →
        exchange.run.waitEvent key other =
          (.ok (.event id filter (delivered.toList ++ later.flatMap (·.resolved id)).head?),
            exchange.run)

theorem Sojourn.recalls {ω : Type} {visit : List (Exchange ω)} {exchange : Exchange ω}
    (h : Sojourn visit exchange.run) : exchange.Recalls visit := by
  intro key other _ earlier made later cut id i filter delivered there
  have ⟨entry, there', becomes⟩ := h.steady.after earlier made later cut i _ there
  have found := Run.entry?_of_mem h.accounts.distinct (List.mem_of_getElem? there')
  cases becomes.eq_of_event
  rw [Run.waitEvent, show exchange.run.entry? (resumeId _ key) = _ from found]
  rfl

namespace Operation

variable {ω : Type}

structure SteadyWaits (history : List (Event ω)) (last : Run) : Prop where
  steady  : last.Steady (Event.visit history)
  between : ∀ before event after, history = before ++ event :: after →
    event.run.Steady (Event.visit before)
  recalls : ∀ before made after, history = before ++ .exchange made :: after →
    made.Recalls (Event.visit before)

-- What a run waits for stays in its place and stays what it is, is resolved once, and is not changed
-- by what is refused, whatever is done to the run but to cancel it.
theorem waits_steady {first : Run} (fresh : first.pending = [])
    {operations : List (Timestamp × Operation ω)}
    (kept : ∀ occasion ∈ operations, occasion.2.isCancel = false) (world : ω) :
    SteadyWaits (history operations first world) (performAll operations first world).1 ∧
      ∀ run : Run, run.Refuses := by
  have sojourns : Sojourns [] (history operations first world)
      (performAll operations first world).1 := history_sojourns kept (.start (.start fresh))
  refine ⟨{ steady := sojourns.at_end.steady, between := ?between, recalls := ?recalls },
    Run.refuses⟩
  case between =>
    intro before event after cut
    rw [cut] at sojourns
    exact sojourns.at_event.steady
  case recalls =>
    intro before made after cut
    rw [cut] at sojourns
    have here : Sojourn (Event.visit before) made.run := sojourns.at_event
    exact here.recalls

namespace Parcel

def receive : HandlerM Unit StepOutcome := do
  match ← HandlerM.waitEvent "bell" (.nat 1) with
  | .event _ _ (some _) => throw (.handler "door" "nobody at home")
  | entry               => return .suspend entry

def porch : Workflow Unit :=
  ⟨"parcel", "door", .null, .ofPairs [("door", receive)]⟩

def morning : List (Timestamp × Operation Unit) :=
  [(default, .execute porch (.limited 1)),
    (default, .request (.resolve "door:bell" (some (.nat 7)))),
    (default, .execute porch (.limited 1)),
    (default, .request (.resolve "door:bell" (some (.nat 8)))),
    (default, .reload),
    (default, .execute porch (.limited 1)),
    (default, .request (.waitEvent "bell" (.nat 2)))]

theorem bell_once :
    porch.instantiate.pending = [] ∧ (∀ occasion ∈ morning, occasion.2.isCancel = false) ∧
      (performAll morning porch.instantiate ()).1.status = .failed ∧
      (performAll morning porch.instantiate ()).1.pending =
        [.event "door:bell" (.nat 1) (some (.nat 7))] ∧
      SteadyWaits (history morning porch.instantiate ())
        (performAll morning porch.instantiate ()).1 := by
  have kept : ∀ occasion ∈ morning, occasion.2.isCancel = false := by
    simp [morning, isCancel]
  have fresh : porch.instantiate.pending = [] := rfl
  have ⟨steady, _⟩ := waits_steady fresh kept ()
  exact ⟨fresh, kept, by decide +kernel, by decide +kernel, steady⟩

end Parcel

end Operation

end DurableWorkflow
