import DurableWorkflow.Proofs.Handler.Frame
import DurableWorkflow.Proofs.Workflow.Exchange

namespace DurableWorkflow

def Run.leave (next : Option String) (run : Run) : Run :=
  match next with
  | some next => { run.leaveStep run.currentStep with currentStep := next }
  | none      => { run.leaveStep run.currentStep with status := .finished }

inductive Event (ω : Type)
  | exchange (exchange : Exchange ω)
  | leave (run : Run) (next : Option String)

namespace Event

variable {ω : Type}

def run : Event ω → Run
  | .exchange made => made.run
  | .leave run _   => run

def after : Event ω → Run
  | .exchange made  => made.after
  | .leave run next => run.leave next

def exchange? : Event ω → Option (Exchange ω)
  | .exchange made => some made
  | .leave ..      => none

def onto (visit : List (Exchange ω)) : Event ω → List (Exchange ω)
  | .exchange made => visit ++ [made]
  | .leave ..      => []

-- The present visit: the exchanges since a step was left.
def visit (history : List (Event ω)) : List (Exchange ω) :=
  history.foldl onto []

def atEnd (run : Run) : Outcome (Except Error StepOutcome) → List (Event ω)
  | .returned (.ok (.advance next)) => [.leave run (some next)]
  | .returned (.ok .done)           => [.leave run none]
  | .returned (.ok (.suspend _)) | .returned (.error _) | .panicked => []

theorem exists_leave {event : Event ω} {run : Run} {result : Outcome (Except Error StepOutcome)}
    (h : event ∈ atEnd run result) : ∃ next, event = leave run next := by
  rcases result with (_ | next | _ | _) | _
  case returned.ok.advance => exact ⟨some next, List.mem_singleton.mp h⟩
  case returned.ok.done    => exact ⟨none, List.mem_singleton.mp h⟩
  all_goals cases h

theorem filterMap_exchange? (exchanges : List (Exchange ω)) :
    (exchanges.map exchange).filterMap exchange? = exchanges := by
  simp [List.filterMap_map, Function.comp_def, exchange?]

theorem filterMap_atEnd {run : Run} {result : Outcome (Except Error StepOutcome)} :
    (atEnd run result : List (Event ω)).filterMap exchange? = [] := by
  refine List.filterMap_eq_nil_iff.mpr fun event hm => ?_
  obtain ⟨next, rfl⟩ := exists_leave hm
  rfl

theorem mem_foldl_onto {visit : List (Exchange ω)} {history : List (Event ω)} {made : Exchange ω}
    (h : made ∈ history.foldl onto visit) : made ∈ visit ∨ exchange made ∈ history := by
  induction history generalizing visit
  case nil => exact .inl h
  case cons event rest ih =>
    rcases ih h with h | h
    · cases event <;> simp [onto] at h
      case exchange => rcases h with h | rfl <;> simp [h]
    · exact .inr (List.mem_cons_of_mem _ h)

theorem mem_of_mem_visit {history : List (Event ω)} {made : Exchange ω} (h : made ∈ visit history) :
    exchange made ∈ history := by
  rcases mem_foldl_onto h with h | h
  · cases h
  · exact h

end Event

-- What may become of a run between two events. Only a run that is closed loses entries.
structure Run.Held (before after : Run) : Prop where
  currentStep : after.currentStep = before.currentStep
  state       : after.state = before.state
  memo        : after.memo = before.memo
  closed      : before.status.isClosed → after.status.isClosed
  dropped     : after.pending.Sublist before.pending
  kept        : after.status.isClosed = false → after.pending = before.pending

namespace Run.Held

variable {first second third run : Run}

theorem of_same {after : Run} (status : after.status = run.status)
    (currentStep : after.currentStep = run.currentStep) (state : after.state = run.state)
    (memo : after.memo = run.memo) (pending : after.pending = run.pending) :
    run.Held after where
  currentStep
  state
  memo
  closed h := status ▸ h
  dropped  := pending ▸ .refl _
  kept _   := pending

theorem refl (run : Run) : run.Held run :=
  of_same rfl rfl rfl rfl rfl

theorem live (h : first.Held second) (live : second.status.isClosed = false) :
    first.status.isClosed = false := by
  cases closed : first.status.isClosed
  case false => rfl
  case true  => rw [h.closed closed] at live; cases live

theorem trans (h₁ : first.Held second) (h₂ : second.Held third) : first.Held third where
  currentStep := h₂.currentStep.trans h₁.currentStep
  state       := h₂.state.trans h₁.state
  memo        := h₂.memo.trans h₁.memo
  closed      := h₂.closed ∘ h₁.closed
  dropped     := h₂.dropped.trans h₁.dropped
  kept live   := (h₂.kept live).trans (h₁.kept (h₂.live live))

theorem of_live {after : Run} (live : run.status.isClosed = false)
    (currentStep : after.currentStep = run.currentStep) (state : after.state = run.state)
    (memo : after.memo = run.memo) (pending : after.pending = run.pending) :
    run.Held after where
  currentStep
  state
  memo
  closed h := by rw [live] at h; cases h
  dropped  := pending ▸ .refl _
  kept _   := pending

theorem cancel : run.Held run.cancel where
  currentStep := rfl
  state       := rfl
  memo        := rfl
  closed _    := rfl
  dropped     := List.filter_sublist
  kept        := nofun

theorem keepAuditLog {enabled : Bool} : run.Held (run.keepAuditLog enabled) := by
  cases enabled <;> exact of_same rfl rfl rfl rfl rfl

end Run.Held

-- A chronicle leads from one run to another by events: the run answers a request, or it leaves its
-- step. Unlike a `Trail` it tells when a step was left.
inductive Chronicle {ω : Type} : Run → List (Event ω) → Run → Prop
  | nil {first last : Run} (h : first.Held last) : Chronicle first [] last
  | cons {first last : Run} {event : Event ω} {rest : List (Event ω)}
      (h : first.Held event.run) (tail : Chronicle event.after rest last) :
      Chronicle first (event :: rest) last

namespace Chronicle

variable {ω : Type} {first second third last : Run} {earlier later : List (Event ω)}

theorem refl (run : Run) : Chronicle run ([] : List (Event ω)) run :=
  .nil (.refl run)

theorem hold_start (h : first.Held second) (c : Chronicle second later third) :
    Chronicle first later third := by
  cases c
  case nil h'       => exact .nil (h.trans h')
  case cons h' tail => exact .cons (h.trans h') tail

theorem append (c₁ : Chronicle first earlier second) (c₂ : Chronicle second later third) :
    Chronicle first (earlier ++ later) third := by
  induction c₁
  case nil h          => exact hold_start h c₂
  case cons h tail ih => exact .cons h (ih c₂)

theorem split (c : Chronicle first (earlier ++ later) third) :
    ∃ second, Chronicle first earlier second ∧ Chronicle second later third := by
  induction earlier generalizing first
  case nil => exact ⟨first, refl first, c⟩
  case cons event earlier ih =>
    cases c
    case cons h tail =>
      have ⟨second, c₁, c₂⟩ := ih tail
      exact ⟨second, .cons h c₁, c₂⟩

theorem event (event : Event ω) : Chronicle event.run [event] event.after :=
  .cons (.refl _) (.refl _)

theorem state_next {event next : Event ω}
    (c : Chronicle first (earlier ++ event :: next :: later) last) :
    next.run.state = event.after.state := by
  have ⟨_, _, c₂⟩ := c.split
  cases c₂ with
  | cons _ tail => cases tail with
    | cons between => exact between.state

theorem state_last {event : Event ω} (c : Chronicle first (earlier ++ [event]) last) :
    last.state = event.after.state := by
  have ⟨_, _, c₂⟩ := c.split
  cases c₂ with
  | cons _ tail => cases tail with
    | nil between => exact between.state

section Visit

-- What every event keeps, and what may become of a run between two events, holds of a run and its
-- present visit all along.
variable {P : List (Exchange ω) → Run → Prop}
  (held : ∀ {visit before after}, P visit before → before.Held after → P visit after)
  (kept : ∀ {visit} {event : Event ω}, P visit event.run → P (event.onto visit) event.after)

include held kept

theorem foldl_onto {visit : List (Exchange ω)} (c : Chronicle first later last)
    (h : P visit first) : P (later.foldl Event.onto visit) last := by
  induction c generalizing visit
  case nil between       => exact held h between
  case cons between _ ih => exact ih (kept (held h between))

theorem along (c : Chronicle first later last) (h : P [] first) : P (Event.visit later) last :=
  foldl_onto (P := P) held kept c h

theorem along_event {event : Event ω} (c : Chronicle first (earlier ++ event :: later) last)
    (h : P [] first) : P (Event.visit earlier) event.run := by
  have ⟨_, c₁, c₂⟩ := c.split
  cases c₂ with
  | cons between => exact held (c₁.along held kept h) between

end Visit

theorem conclude {run : Run} (live : run.status.isClosed = false)
    (result : Outcome (Except Error StepOutcome)) :
    Chronicle run (Event.atEnd run result : List (Event ω))
      (run.concludeStep run.currentStep result).2 := by
  rcases result with (error | next | entry | _) | _
  case returned.ok.advance => exact .event (.leave run (some next))
  case returned.ok.done    => exact .event (.leave run none)
  case returned.ok.suspend => exact .nil (.of_live live rfl rfl rfl rfl)
  case returned.error      => exact .refl run
  case panicked            => exact .refl run

end Chronicle

theorem Script.chronicle {ω α : Type} (now : Timestamp) (script : Script ω α) (run : Run)
    (world : ω) :
    Chronicle run ((script.exchanges now run world).map .exchange)
      (script.run now run world).2.1 := by
  induction script generalizing run world
  case pure  => exact .refl run
  case panic => exact .refl run
  case call request next ih =>
    rw [Script.exchanges]
    refine .cons (show run.Held (Event.exchange ⟨now, request, run, world⟩).run from .refl run) ?_
    rw [Script.run, Event.after, Exchange.after]
    rcases request.answer now run world with ⟨_ | _, after, world⟩
    case returned reply => exact ih reply after world
    case panicked       => exact .refl after

theorem Script.served_of_mem {ω α : Type} {now : Timestamp} {script : Script ω α} {run : Run}
    {world : ω} {made : Exchange ω} (h : made ∈ script.exchanges now run world) :
    run.Served made.run := by
  induction script generalizing run world
  case pure  => cases h
  case panic => cases h
  case call request next ih =>
    rw [Script.exchanges] at h
    have served : run.Served (request.answer now run world).2.1 := request.answer_served
    rcases List.mem_cons.mp h with rfl | h
    · exact .refl run
    · generalize request.answer now run world = answered at served h
      obtain ⟨_ | _, after, world⟩ := answered
      case returned reply => exact served.trans (ih reply h)
      case panicked       => cases h

namespace Workflow

variable {ω : Type} (workflow : Workflow ω) (now : Timestamp)

def stepEvents (run : Run) (world : ω) : List (Event ω) :=
  match workflow.enter run with
  | .error _    => []
  | .ok handler =>
    let (result, after, _) := Script.run now handler.run run world
    (Script.exchanges now handler.run run world).map .exchange ++ Event.atEnd after result

def roundsEvents : Nat → Run → ω → List (Event ω)
  | 0, _, _ => []
  | left + 1, run, world =>
    workflow.stepEvents now run world ++
      let (progress, run, world) := workflow.stepOnce now run world
      match run.concludeRound progress with
      | (none, run) => roundsEvents left run world
      | (some _, _) => []

def passEvents (budget : Budget) (run : Run) (world : ω) : List (Event ω) :=
  if run.status.isClosed then [] else workflow.roundsEvents now budget.rounds run.launch world

variable {workflow now} {run : Run} {world : ω} {budget : Budget} {left : Nat} {event : Event ω}

theorem enter_live {handler : Handler ω} (h : workflow.enter run = .ok handler) :
    run.status.isClosed = false := by
  rw [enter] at h
  split at h
  case isTrue       => cases h
  case isFalse live => simpa using live

theorem handler?_of_enter {handler : Handler ω} (h : workflow.enter run = .ok handler) :
    workflow.handler? run.currentStep = some handler := by
  rw [enter, enter_live h] at h
  cases known : workflow.handler? run.currentStep <;> simp [known] at h
  exact congrArg some h

theorem exists_handler (h : event ∈ workflow.stepEvents now run world) :
    ∃ handler, workflow.handler? run.currentStep = some handler := by
  rw [stepEvents] at h
  cases entered : workflow.enter run <;> rw [entered] at h
  case error      => cases h
  case ok handler => exact ⟨handler, handler?_of_enter entered⟩

theorem stepEvents_of_handler {handler : Handler ω} (live : run.status.isClosed = false)
    (h : workflow.handler? run.currentStep = some handler) :
    workflow.stepEvents now run world =
      let (result, after, _) := Script.run now handler.run run world
      (Script.exchanges now handler.run run world).map .exchange ++ Event.atEnd after result := by
  rw [stepEvents, enter, live, h]
  rfl

theorem stepChronicle (workflow : Workflow ω) (now : Timestamp) (run : Run) (world : ω) :
    Chronicle run (workflow.stepEvents now run world) (workflow.stepOnce now run world).2.1 := by
  rw [stepEvents, stepOnce]
  cases entered : workflow.enter run
  case error => exact .refl run
  case ok handler =>
    have script := Script.chronicle now handler.run run world
    have served : run.Served (Script.run now handler.run run world).2.1 := Script.run_served _ _ _
    dsimp only
    generalize Script.run now handler.run run world = ran at script served ⊢
    obtain ⟨result, after, world⟩ := ran
    have live : after.status.isClosed = false := served.status ▸ enter_live entered
    refine script.append ?_
    rw [← served.currentStep]
    exact .conclude live result

theorem stepOnce_live {progress : Outcome (Except Error Progress)} {after : Run} {world' : ω}
    (live : run.status.isClosed = false)
    (h : workflow.stepOnce now run world = (progress, after, world'))
    (going : progress ≠ .returned (.ok .finished)) : after.status.isClosed = false := by
  rw [stepOnce] at h
  cases entered : workflow.enter run <;> rw [entered] at h
  case error =>
    cases h
    exact live
  case ok handler =>
    have served : run.Served (Script.run now handler.run run world).2.1 := Script.run_served _ _ _
    dsimp only at h
    generalize Script.run now handler.run run world = ran at served h
    obtain ⟨(error | next | entry | _) | _, last, world⟩ := ran <;> cases h
    case returned.ok.suspend => rfl
    case returned.ok.done    => exact absurd rfl going
    all_goals exact served.status ▸ live

theorem stepOnce_left {progress : Progress} {after : Run} {world' : ω}
    (h : workflow.stepOnce now run world = (.returned (.ok progress), after, world'))
    (left : ∀ entry, progress ≠ .suspended entry) :
    ∃ earlier last next, workflow.stepEvents now run world = earlier ++ [.leave last next] ∧
      after = last.leave next := by
  rw [stepOnce] at h
  rw [stepEvents]
  cases entered : workflow.enter run <;> rw [entered] at h
  case error => cases h
  case ok handler =>
    have served : run.Served (Script.run now handler.run run world).2.1 := Script.run_served _ _ _
    dsimp only at h ⊢
    generalize Script.run now handler.run run world = ran at served h ⊢
    obtain ⟨(error | next | entry | _) | _, last, world⟩ := ran <;> cases h
    case returned.ok.advance =>
      rw [← served.currentStep]
      exact ⟨_, last, some next, rfl, rfl⟩
    case returned.ok.done =>
      rw [← served.currentStep]
      exact ⟨_, last, none, rfl, rfl⟩
    case returned.ok.suspend => exact absurd rfl (left entry)

theorem roundsChronicle (live : run.status.isClosed = false) :
    Chronicle run (workflow.roundsEvents now left run world)
      (workflow.rounds now budget left run world).2.1 := by
  induction left generalizing run world
  case zero => cases budget <;> exact .nil (.of_live live rfl rfl rfl rfl)
  case succ left ih =>
    rw [roundsEvents, rounds]
    have step := workflow.stepChronicle now run world
    rcases once : workflow.stepOnce now run world with
      ⟨(error | next | entry | _) | _, after, world⟩ <;>
      rw [once] at step
    case returned.ok.advanced =>
      exact step.append (ih (stepOnce_live live once (by rintro ⟨⟩)))
    case returned.error =>
      exact step.append (.nil (.of_live (stepOnce_live live once (by rintro ⟨⟩)) rfl rfl rfl rfl))
    all_goals exact step.append (.refl after)

theorem passChronicle (workflow : Workflow ω) (now : Timestamp) (budget : Budget) (run : Run)
    (world : ω) :
    Chronicle run (workflow.passEvents now budget run world)
      (workflow.execute now budget run world).2.1 := by
  rw [passEvents, execute]
  split
  case isTrue  => exact .refl run
  case isFalse live =>
    have live : run.status.isClosed = false := by simpa using live
    refine Chronicle.hold_start (show run.Held run.launch from .of_live live rfl rfl rfl rfl) ?_
    exact roundsChronicle rfl

theorem mem_roundsEvents (h : event ∈ workflow.roundsEvents now left run world) :
    ∃ run world, event ∈ workflow.stepEvents now run world := by
  induction left generalizing run world
  case zero => cases h
  case succ left ih =>
    rw [roundsEvents] at h
    rcases List.mem_append.mp h with h | h
    · exact ⟨run, world, h⟩
    · dsimp only at h
      split at h
      case h_1 => exact ih h
      case h_2 => cases h

theorem mem_passEvents (h : event ∈ workflow.passEvents now budget run world) :
    ∃ run world, event ∈ workflow.stepEvents now run world := by
  rw [passEvents] at h
  split at h
  case isTrue  => cases h
  case isFalse => exact mem_roundsEvents h

theorem served_of_mem_stepEvents (h : event ∈ workflow.stepEvents now run world) :
    run.status.isClosed = false ∧ run.Served event.run := by
  rw [stepEvents] at h
  cases entered : workflow.enter run <;> rw [entered] at h
  case error => cases h
  case ok handler =>
    refine ⟨enter_live entered, ?_⟩
    rcases List.mem_append.mp h with h | h
    · have ⟨made, hm, he⟩ := List.mem_map.mp h
      exact he ▸ Script.served_of_mem hm
    · have served : run.Served (Script.run now handler.run run world).2.1 := Script.run_served _ _ _
      obtain ⟨next, rfl⟩ := Event.exists_leave h
      exact served

theorem exchanges_stepEvents :
    (workflow.stepEvents now run world).filterMap Event.exchange? =
      workflow.stepExchanges now run world := by
  rw [stepEvents, stepExchanges]
  cases workflow.enter run
  case error => rfl
  case ok handler =>
    dsimp only
    rw [List.filterMap_append, Event.filterMap_exchange?, Event.filterMap_atEnd, List.append_nil]

theorem time_of_mem_passEvents {made : Exchange ω}
    (h : .exchange made ∈ workflow.passEvents now budget run world) : made.time = now := by
  have ⟨run, world, h⟩ := mem_passEvents h
  have hm : made ∈ (workflow.stepEvents now run world).filterMap Event.exchange? :=
    List.mem_filterMap.mpr ⟨_, h, rfl⟩
  rw [exchanges_stepEvents] at hm
  exact time_of_mem_step hm

theorem live_of_mem_passEvents (h : event ∈ workflow.passEvents now budget run world) :
    event.run.status.isClosed = false := by
  have ⟨run, world, h⟩ := mem_passEvents h
  have ⟨live, served⟩ := served_of_mem_stepEvents h
  exact served.status ▸ live

end Workflow

end DurableWorkflow
