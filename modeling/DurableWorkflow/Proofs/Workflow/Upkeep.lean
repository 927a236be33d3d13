import DurableWorkflow.Proofs.Workflow.Operation

namespace DurableWorkflow

namespace Workflow

variable {ω : Type} {workflow : Workflow ω} {now : Timestamp} {run : Run} {world : ω}
  {budget : Budget} {left : Nat} {visit : List (Exchange ω)}

theorem stepOnce_ends (live : run.status.isClosed = false) :
    (workflow.stepOnce now run world).2.1.status.isClosed = false ∨
      (workflow.stepEvents now run world).foldl Event.onto visit = [] := by
  rcases once : workflow.stepOnce now run world with ⟨progress, after, world'⟩
  by_cases finished : progress = .returned (.ok .finished)
  case neg => exact .inl (stepOnce_live live once finished)
  case pos =>
    subst finished
    have ⟨earlier, last, next, events, _⟩ := stepOnce_left once fun _ => by rintro ⟨⟩
    right
    rw [events, List.foldl_append]
    rfl

theorem rounds_ends (live : run.status.isClosed = false) :
    (workflow.rounds now budget left run world).2.1.status.isClosed = false ∨
      (workflow.roundsEvents now left run world).foldl Event.onto visit = [] := by
  induction left generalizing run world visit
  case zero =>
    left
    cases budget
    case limited   => rfl
    case unlimited => exact live
  case succ left ih =>
    rw [roundsEvents, rounds]
    have ends : (workflow.stepOnce now run world).2.1.status.isClosed = false ∨
        (workflow.stepEvents now run world).foldl Event.onto visit = [] := stepOnce_ends live
    rcases once : workflow.stepOnce now run world with
      ⟨(error | next | entry | _) | _, after, world'⟩ <;>
      rw [once] at ends
    case returned.ok.advanced =>
      rw [List.foldl_append]
      exact ih (stepOnce_live live once (by rintro ⟨⟩))
    case returned.error => exact .inl rfl
    all_goals
      rw [List.foldl_append]
      exact ends

theorem execute_ends (live : run.status.isClosed = false) :
    (workflow.execute now budget run world).2.1.status.isClosed = false ∨
      (workflow.passEvents now budget run world).foldl Event.onto visit = [] := by
  rw [execute, passEvents, live]
  exact rounds_ends rfl

end Workflow

inductive Upkeep {ω : Type} (P : List (Exchange ω) → Run → Prop) :
    List (Exchange ω) → List (Event ω) → Run → Prop
  | nil {visit : List (Exchange ω)} {last : Run} (h : P visit last) : Upkeep P visit [] last
  | cons {visit : List (Exchange ω)} {event : Event ω} {rest : List (Event ω)} {last : Run}
      (h : P visit event.run) (tail : Upkeep P (event.onto visit) rest last) :
      Upkeep P visit (event :: rest) last

namespace Upkeep

variable {ω : Type} {P : List (Exchange ω) → Run → Prop} {visit : List (Exchange ω)}
  {middle last : Run} {event : Event ω} {events earlier later : List (Event ω)}

theorem at_end (h : Upkeep P visit events last) : P (events.foldl Event.onto visit) last := by
  induction h with
  | nil h       => exact h
  | cons _ _ ih => exact ih

theorem at_event (h : Upkeep P visit (earlier ++ event :: later) last) :
    P (earlier.foldl Event.onto visit) event.run := by
  induction earlier generalizing visit
  case nil =>
    cases h with
    | cons h => exact h
  case cons _ _ ih =>
    cases h with
    | cons _ tail => exact ih tail

theorem append (h₁ : Upkeep P visit earlier middle)
    (h₂ : Upkeep P (earlier.foldl Event.onto visit) later last) :
    Upkeep P visit (earlier ++ later) last := by
  induction h₁ with
  | nil         => exact h₂
  | cons h _ ih => exact .cons h (ih h₂)

end Upkeep

def Operation.isCancel {ω : Type} : Operation ω → Bool
  | .cancel => true
  | .request _ | .waitNanos .. | .stepOnce _ | .execute .. | .keepAuditLog _ | .reload => false

-- What events keep of a run and its visit, and what happens to a run meanwhile.
structure Upheld {ω : Type} (P : List (Exchange ω) → Run → Prop) : Prop where
  held : ∀ {visit run after}, P visit run → run.Held after → after.pending = run.pending →
    P visit after
  -- Before anything is exchanged a run may also lose entries.
  idle : ∀ {run after}, P [] run → run.Held after → P [] after
  event : ∀ {visit} {event : Event ω}, P visit event.run → P (event.onto visit) event.after

namespace Upheld

variable {ω : Type} {P : List (Exchange ω) → Run → Prop} (upheld : Upheld P) {now : Timestamp}
  {visit : List (Exchange ω)} {events : List (Event ω)} {first last run : Run} {world : ω}

include upheld

theorem exchange {made : Exchange ω} (h : P visit made.run) :
    Upkeep P visit [.exchange made] made.after :=
  have h : P visit (Event.exchange made).run := h
  .cons h (.nil (upheld.event h))

theorem chronicle (c : Chronicle first events last)
    (live : ∀ event ∈ events, event.run.status.isClosed = false)
    (ends : last.status.isClosed = false ∨ events.foldl Event.onto visit = [])
    (h : P visit first) : Upkeep P visit events last := by
  induction c generalizing visit
  case nil between =>
    rcases ends with live | rfl
    · exact .nil (upheld.held h between (between.kept live))
    · exact .nil (upheld.idle h between)
  case cons between _ ih =>
    have ⟨here, live⟩ := List.forall_mem_cons.mp live
    have h := upheld.held h between (between.kept here)
    exact .cons h (ih live ends (upheld.event h))

theorem operation {operation : Operation ω} (kept : operation.isCancel = false)
    (h : P visit run) :
    Upkeep P visit (operation.events now run world) (operation.perform now run world).2.1 := by
  have chronicle := operation.chronicle now run world
  cases operation
  case request made =>
    have h : P visit (⟨now, made, run, world⟩ : Exchange ω).run := h
    exact upheld.exchange h
  case waitNanos key nanos =>
    let request : Request ω := .waitMillis key (min (nanos / 1000000) Word.maxUnsigned)
    have h : P visit (⟨now, request, run, world⟩ : Exchange ω).run := h
    exact upheld.exchange h
  case stepOnce workflow =>
    cases closed : run.status.isClosed
    case false =>
      refine upheld.chronicle chronicle (fun event hm => ?_) (Workflow.stepOnce_ends closed) h
      have ⟨live, served⟩ := Workflow.served_of_mem_stepEvents hm
      exact served.status ▸ live
    case true =>
      have entered : workflow.enter run = .error run.closedError := if_pos closed
      rw [Operation.events, Operation.perform, Workflow.stepEvents, Workflow.stepOnce, entered]
      exact .nil h
  case execute workflow budget =>
    cases closed : run.status.isClosed
    case false =>
      exact upheld.chronicle chronicle (fun _ => Workflow.live_of_mem_passEvents)
        (Workflow.execute_ends closed) h
    case true =>
      rw [Operation.events, Operation.perform, Workflow.passEvents, Workflow.execute,
        if_pos closed, if_pos closed]
      exact .nil h
  case cancel => cases kept
  case keepAuditLog enabled =>
    exact .nil (upheld.held h .keepAuditLog (by cases enabled <;> rfl))
  case reload =>
    rw [Operation.perform_reload]
    exact .nil h

theorem history {operations : List (Timestamp × Operation ω)}
    (kept : ∀ occasion ∈ operations, occasion.2.isCancel = false) (h : P visit run) :
    Upkeep P visit (Operation.history operations run world)
      (Operation.performAll operations run world).1 := by
  induction operations generalizing visit run world
  case nil => exact .nil h
  case cons occasion rest ih =>
    obtain ⟨now, operation⟩ := occasion
    have ⟨here, later⟩ := List.forall_mem_cons.mp kept
    have first : Upkeep P visit (operation.events now run world)
        (operation.perform now run world).2.1 := upheld.operation here h
    exact first.append (ih later first.at_end)

end Upheld

theorem concat_eq_append_cons {α : Type} {list earlier later : List α} {last a : α}
    (cut : list ++ [last] = earlier ++ a :: later) :
    list = earlier ∧ a = last ∧ later = [] ∨
      ∃ later', later = later' ++ [last] ∧ list = earlier ++ a :: later' := by
  rcases List.eq_nil_or_concat later with rfl | ⟨later', other, rfl⟩
  case inl =>
    obtain ⟨rfl, same⟩ := List.append_singleton_inj.mp cut
    exact .inl ⟨rfl, same.symm, rfl⟩
  case inr =>
    rw [List.concat_eq_append, ← List.cons_append, ← List.append_assoc] at cut
    obtain ⟨within, rfl⟩ := List.append_singleton_inj.mp cut
    exact .inr ⟨later', List.concat_eq_append, within⟩

end DurableWorkflow
