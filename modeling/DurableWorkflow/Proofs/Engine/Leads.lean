import DurableWorkflow.Proofs.Engine.Sweep
import DurableWorkflow.Proofs.Workflow.Visit

namespace DurableWorkflow

def Pass.events {ω : Type} (pass : Pass ω) : List (Event ω) :=
  pass.workflow.passEvents pass.time pass.budget pass.run pass.world

inductive Leads {ω : Type} : Option Run → List (Event ω) → Option Run → Prop
  | absent : Leads none [] none
  -- Runs are started without entries.
  | started {first last : Run} {events : List (Event ω)} (idle : first.pending = [])
      (chronicle : Chronicle first events last) : Leads none events (some last)
  | stored {before last : Run} {events : List (Event ω)}
      (chronicle : Chronicle before events last) : Leads (some before) events (some last)

namespace Leads

variable {ω : Type} {first second third : Option Run} {earlier later : List (Event ω)}
  {event : Event ω} {last : Run}

theorem refl (loaded : Option Run) : Leads loaded ([] : List (Event ω)) loaded := by
  cases loaded
  case none => exact .absent
  case some => exact .stored (.refl _)

theorem trans (h₁ : Leads first earlier second) (h₂ : Leads second later third) :
    Leads first (earlier ++ later) third := by
  cases h₁ with
  | absent => exact h₂
  | started idle c₁ =>
    cases h₂ with
    | stored c₂ => exact .started idle (c₁.append c₂)
  | stored c₁ =>
    cases h₂ with
    | stored c₂ => exact .stored (c₁.append c₂)

theorem accounts_visit (h : Leads none earlier (some last)) :
    Accounts (Event.visit earlier) last := by
  cases h with
  | started idle chronicle => exact chronicle.accounts_visit idle

-- What happened to a run from its start on happened to one run.
theorem exists_chronicle (h : Leads none earlier second) (happened : earlier ≠ []) :
    ∃ begun last, begun.pending = [] ∧ second = some last ∧ Chronicle begun earlier last := by
  cases h with
  | absent                 => exact absurd rfl happened
  | started idle chronicle => exact ⟨_, _, idle, rfl, chronicle⟩

theorem accounts_event (h : Leads none (earlier ++ event :: later) second) :
    Accounts (Event.visit earlier) event.run := by
  have ⟨_, _, idle, _, chronicle⟩ := h.exists_chronicle (by simp)
  exact chronicle.accounts_event idle

theorem fired (h : Leads first earlier (some last)) {id : String} {deadline : Timestamp}
    (hm : .timer id deadline true ∈ last.pending) :
    (∃ before, first = some before ∧ .timer id deadline true ∈ before.pending) ∨
      ∃ exchange, .exchange exchange ∈ earlier ∧ deadline ≤ exchange.time := by
  cases h with
  | @started begun _ _ idle chronicle =>
    refine (chronicle.fired hm).imp_left fun there => ?_
    rw [idle] at there
    cases there
  | stored chronicle => exact (chronicle.fired hm).imp_left fun there => ⟨_, rfl, there⟩

end Leads

namespace Engine

variable {ω : Type} {engine : Engine ω} {now : Timestamp} {call : Call} {loaded staged : Option Run}
  {runId : String} {store : Store} {world world' : ω} {ending : CallEnd} {event : Event ω}

def events (engine : Engine ω) (now : Timestamp) (call : Call) (loaded : Option Run) (world : ω) :
    List (Event ω) :=
  match engine.prepare now (.only call.runId loaded) call,
    (engine.work now call loaded world).2.1 with
  | .ok (.drive workflow run), some _ =>
    (call.opening now loaded world).map .exchange ++
      workflow.passEvents now engine.config.budget run world
  | _, _ => []

theorem events_of_not_staged (h : (engine.work now call loaded world).2.1 = none) :
    engine.events now call loaded world = [] := by
  rw [events, h]
  split
  case h_1 staged => cases staged
  case h_2        => rfl

theorem events_of_drive {workflow : Workflow ω} {run after : Run}
    (granted : engine.Grants now loaded call (.drive workflow run))
    (h : (engine.work now call loaded world).2.1 = some after) :
    engine.events now call loaded world = (call.opening now loaded world).map .exchange ++
      workflow.passEvents now engine.config.budget run world := by
  rw [events, h, prepare_only_eq_ok_iff.mpr granted]

theorem opened_pending {initial : Run} :
    (engine.opened runId initial).pending = initial.pending := by
  rw [opened, Run.keepAuditLog]
  split <;> rfl

theorem Grants.leads {workflow : Workflow ω} {run last : Run} {events : List (Event ω)}
    (granted : engine.Grants now loaded call (.drive workflow run)) (fresh : call.Fresh)
    (world : ω) (chronicle : Chronicle run events last) :
    Leads loaded ((call.opening now loaded world).map .exchange ++ events) (some last) := by
  cases granted with
  | run new =>
    subst new
    exact .started (opened_pending.trans fresh) chronicle
  | retry stored =>
    subst stored
    exact .stored chronicle
  | @resume _ id payload before _ _ _ stored _ resolved =>
    subst stored
    have resolving := Chronicle.event (.exchange ⟨now, .resolve id payload, before, world⟩)
    refine .stored (resolving.append ?_)
    simpa [Event.after, Exchange.after, Request.answer, resolved] using chronicle

theorem work_leads (fresh : call.Fresh) (engine : Engine ω) (now : Timestamp) (loaded : Option Run)
    (world : ω) :
    Leads loaded (engine.events now call loaded world)
      ((engine.work now call loaded world).2.1.or loaded) := by
  rcases work : engine.work now call loaded world with ⟨ending, _ | last, world'⟩
  case none =>
    rw [events_of_not_staged (congrArg (·.2.1) work)]
    exact .refl loaded
  case some =>
    have staged := congrArg (·.2.1) work
    change Leads loaded _ (some last)
    obtain ⟨left, hs⟩ : ∃ left, left = some last := ⟨_, rfl⟩
    rw [← hs] at work
    cases work_eq_iff.mp work with
    | refused | settled => cases hs
    | kept granted =>
      cases hs
      rw [events, prepare_only_eq_ok_iff.mpr granted]
      cases granted with
      | cancel stored =>
        subst stored
        exact .stored (.nil .cancel)
    | @driven workflow run after result _ granted pass =>
      cases eq_of_stage hs
      have chronicle := workflow.passChronicle now engine.config.budget run world
      rw [pass] at chronicle
      rw [events_of_drive granted staged]
      exact granted.leads fresh world chronicle

-- Where the events of a call come from: the entry is resolved that is resumed, or a pass is made.
inductive Arises (engine : Engine ω) (now : Timestamp) (loaded : Option Run) (call : Call) :
    Event ω → Prop
  | opening {run after : Run} {id : String} {payload : Option Json} {fired : Bool} {world : ω}
      (resolved : run.resolve now id payload = (.ok fired, after))
      (live     : run.status.isClosed = false) :
      Arises engine now loaded call (.exchange ⟨now, .resolve id payload, run, world⟩)
  | pass {pass : Pass ω} {event : Event ω} (drives : engine.Drives now loaded call pass)
      (made : event ∈ pass.events) : Arises engine now loaded call event

theorem Grants.opens {workflow : Workflow ω} {run : Run}
    (granted : engine.Grants now loaded call (.drive workflow run))
    (h : event ∈ (call.opening now loaded world).map .exchange) :
    engine.Arises now loaded call event := by
  cases granted with
  | run | retry => simp [Call.opening] at h
  | resume stored _ resolved live =>
    subst stored
    cases List.mem_singleton.mp h
    exact .opening resolved ((Run.resolve_served resolved).status ▸ live)

theorem mem_events (h : event ∈ engine.events now call loaded world) :
    engine.Arises now loaded call event := by
  rw [events] at h
  split at h
  case h_2 => cases h
  case h_1 workflow run after prepared _ =>
    have granted := prepare_only_eq_ok_iff.mp prepared
    rcases List.mem_append.mp h with opening | made
    · exact granted.opens opening
    · exact .pass (.intro world granted) made

theorem Arises.live (h : engine.Arises now loaded call event) :
    event.run.status.isClosed = false := by
  cases h with
  | opening _ live => exact live
  | pass _ made    => exact Workflow.live_of_mem_passEvents made

theorem Arises.time {made : Exchange ω} (h : engine.Arises now loaded call (.exchange made)) :
    made.time = now := by
  cases h with
  | opening => rfl
  | pass drives made =>
    cases drives
    exact Workflow.time_of_mem_passEvents made

def eventsOf (engine : Engine ω) (runId : String) (now : Timestamp) (call : Call) (store : Store)
    (world : ω) : List (Event ω) :=
  if call.runId = runId then engine.events now call (store.get? runId) world else []

def fireEvents (engine : Engine ω) (runId : String) (now : Timestamp) :
    List DueTimer → Store → ω → List (Event ω)
  | [], _, _ => []
  | timer :: rest, store, world =>
    let call := .resume timer.runId timer.resumeId none
    engine.eventsOf runId now call store world ++
      let (ending, store, world) := engine.perform now call store world
      if ending.returned then engine.fireEvents runId now rest store world else []

namespace State

def events (runId : String) (s : State ω) : Act ω → List (Event ω)
  | .call engine call => engine.eventsOf runId s.now call s.store s.world
  | .sweep engine     => engine.fireEvents runId s.now (s.store.listDue s.now) s.store s.world
  | .clock _          => []

end State

theorem perform_leads (fresh : call.runId = runId → call.Fresh) :
    Leads (store.get? runId) (engine.eventsOf runId now call store world)
      ((engine.perform now call store world).2.1.get? runId) := by
  rw [eventsOf, perform_eq]
  dsimp only
  split
  case isTrue addressed =>
    subst addressed
    rw [Store.get?_commit_self]
    exact work_leads (fresh rfl) engine now _ world
  case isFalse others =>
    rw [Store.get?_commit_of_ne others]
    exact .refl _

theorem fire_leads {timers : List DueTimer} {count : Nat} :
    Leads (store.get? runId) (engine.fireEvents runId now timers store world)
      ((engine.fire now timers count store world).2.1.get? runId) := by
  induction timers generalizing count store world
  case nil => exact .refl _
  case cons timer rest ih =>
    let call := Call.resume timer.runId timer.resumeId none
    have first : Leads (store.get? runId) (engine.eventsOf runId now call store world)
        ((engine.perform now call store world).2.1.get? runId) := perform_leads fun _ => trivial
    rw [fireEvents, fire]
    generalize engine.perform now (.resume timer.runId timer.resumeId none) store world = performed
      at first ⊢
    obtain ⟨ending, store₁, world₁⟩ := performed
    refine first.trans ?_
    cases ending
    case panicked   => exact .refl _
    case unfinished => exact .refl _
    all_goals exact ih

variable {s : State ω} {act : Act ω}

theorem act_leads
    (fresh : ∀ engine call, act.Makes engine call → call.runId = runId → call.Fresh) :
    Leads (s.store.get? runId) (s.events runId act) ((s.act act).store.get? runId) := by
  cases act
  case call engine call => exact perform_leads (fresh engine call .call)
  case sweep engine     => exact fire_leads
  case clock            => exact .refl _

theorem mem_eventsOf (h : event ∈ engine.eventsOf runId now call store world) :
    call.runId = runId ∧ engine.Arises now (store.get? runId) call event := by
  rw [eventsOf] at h
  split at h
  case isTrue addressed => exact ⟨addressed, mem_events h⟩
  case isFalse          => cases h

section Kept

-- What every call on a run keeps holds of the run whenever something happens to it.
variable {Q : Option Run → Prop}

theorem mem_fireEvents (kept : ∀ id, engine.Keeps Q (.resume runId id none))
    {timers : List DueTimer} (h : Q (store.get? runId))
    (hm : event ∈ engine.fireEvents runId now timers store world) :
    ∃ id loaded, Q loaded ∧ engine.Arises now loaded (.resume runId id none) event := by
  induction timers generalizing store world
  case nil => cases hm
  case cons timer rest ih =>
    let call := Call.resume timer.runId timer.resumeId none
    have kept_call (addressed : call.runId = runId) : engine.Keeps Q call := by
      subst addressed
      exact kept timer.resumeId
    have later := perform_keeps kept_call now world h
    rw [fireEvents] at hm
    rcases List.mem_append.mp hm with hm | hm
    · obtain ⟨rfl, arises⟩ := mem_eventsOf hm
      exact ⟨timer.resumeId, _, h, arises⟩
    · dsimp only at hm
      split at hm
      case isTrue  => exact ih later hm
      case isFalse => cases hm

theorem mem_act
    (kept : ∀ engine call, act.Makes engine call → call.runId = runId → engine.Keeps Q call)
    (h : Q (s.store.get? runId)) (hm : event ∈ s.events runId act) :
    ∃ engine call loaded, act.Makes engine call ∧ call.runId = runId ∧ Q loaded ∧
      engine.Arises s.now loaded call event := by
  cases act with
  | call engine call =>
    have ⟨addressed, arises⟩ := mem_eventsOf hm
    exact ⟨engine, call, _, .call, addressed, h, arises⟩
  | sweep engine =>
    have ⟨id, loaded, holds, arises⟩ := mem_fireEvents (fun _ => kept engine _ .sweep rfl) h hm
    exact ⟨engine, _, loaded, .sweep, rfl, holds, arises⟩
  | clock => cases hm

end Kept

end Engine

end DurableWorkflow
