import DurableWorkflow.Proofs.Memo.Recollection
import DurableWorkflow.Proofs.Workflow.Budget
import DurableWorkflow.Proofs.Workflow.Waits

namespace DurableWorkflow

namespace Workflow

variable {ω : Type} {workflow : Workflow ω} {now : Timestamp} {budget : Budget} {n : Nat}
  {start stood last : Run} {world world₁ world' : ω} {ending : PassEnd}

inductive Closes (workflow : Workflow ω) (now : Timestamp) (stood : Run) (world : ω) :
    PassEnd → Run → ω → Prop
  | missing (unknown : workflow.handler? stood.currentStep = none) :
    Closes workflow now stood world (.failed (.missingHandler stood.currentStep))
      (stood.fail (.missingHandler stood.currentStep)) world
  | failed {handler : Handler ω} {error : Error} {left : Run} {world' : ω}
      (known : workflow.handler? stood.currentStep = some handler)
      (ran : Script.run now handler.run stood world = (.returned (.error error), left, world')) :
    Closes workflow now stood world (.failed error) (left.fail error) world'
  | suspended {handler : Handler ω} {entry : ResumeEntry} {left : Run} {world' : ω}
      (known : workflow.handler? stood.currentStep = some handler)
      (ran : Script.run now handler.run stood world =
        (.returned (.ok (.suspend entry)), left, world')) :
    Closes workflow now stood world (.suspended entry) { left with status := .suspended } world'
  | finished {handler : Handler ω} {left : Run} {world' : ω}
      (known : workflow.handler? stood.currentStep = some handler)
      (ran : Script.run now handler.run stood world = (.returned (.ok .done), left, world')) :
    Closes workflow now stood world .finished
      { left.leaveStep stood.currentStep with status := .finished } world'
  | panicked {handler : Handler ω} {left : Run} {world' : ω}
      (known : workflow.handler? stood.currentStep = some handler)
      (ran : Script.run now handler.run stood world = (.panicked, left, world')) :
    Closes workflow now stood world .panicked left world'

theorem round_closes (live : stood.status.isClosed = false)
    (h : workflow.round now stood world = (some ending, last, world')) :
    workflow.Closes now stood world ending last world' := by
  rw [round, enter, live] at h
  cases known : workflow.handler? stood.currentStep <;>
    simp only [known, Bool.false_eq_true, if_false] at h
  case none =>
    cases h
    exact .missing known
  case some handler =>
    rw [Handler.round] at h
    rcases ran : Script.run now handler.run stood world with
      ⟨(error | next | entry | _) | _, left, world₁⟩ <;> rw [ran] at h <;> cases h
    case returned.error      => exact .failed known ran
    case returned.ok.suspend => exact .suspended known ran
    case returned.ok.done    => exact .finished known ran
    case panicked            => exact .panicked known ran

structure Stands (workflow : Workflow ω) (now : Timestamp) (n : Nat) (start : Run) (world : ω)
    (stood : Run) (world' : ω) : Prop where
  marched : workflow.march now n start.launch world = (none, stood, world')
  status  : stood.status = .running
  error   : stood.error = none

theorem march_stands (h : workflow.march now n start.launch world = (none, stood, world')) :
    workflow.Stands now n start world stood world' where
  marched := h
  status  := (march_onwards h).status
  error   := (march_onwards h).error

-- The ways in which a pass ends.
inductive Ending (workflow : Workflow ω) (now : Timestamp) (budget : Budget) (start : Run)
    (world : ω) : PassEnd → Run → ω → Prop
  | closed {n : Nat} {stood last : Run} {world₁ world' : ω} {ending : PassEnd}
      (stands : workflow.Stands now n start world stood world₁) (within : n < budget.rounds)
      (closes : workflow.Closes now stood world₁ ending last world') :
    Ending workflow now budget start world ending last world'
  | exhausted {stood : Run} {world' : ω}
      (stands : workflow.Stands now budget.rounds start world stood world') :
    Ending workflow now budget start world (budget.exhausted stood).1 (budget.exhausted stood).2
      world'

-- All rounds before the last one moved the run on, so the run is what the last handler left, but
-- for its status and error.
theorem execute_ending (live : start.status.isClosed = false)
    (h : workflow.execute now budget start world = (ending, last, world')) :
    workflow.Ending now budget start world ending last world' := by
  rcases hm : workflow.march now budget.rounds start.launch world with ⟨_ | ended, stood, world₁⟩
  case none =>
    rw [execute_of_march budget live hm] at h
    cases h
    exact .exhausted (march_stands hm)
  case some =>
    rw [execute_of_march_end budget live (Nat.le_refl _) hm] at h
    cases h
    have ⟨m, within, before, world₂, marched, round⟩ := exists_march_of_march hm
    have stands := march_stands marched
    exact .closed stands within (round_closes (by rw [stands.status]; rfl) round)

end Workflow

namespace Trail

variable {ω : Type} {first last : Run} {exchanges earlier : List (Exchange ω)} {made : Exchange ω}

theorem state_nil (t : Trail first ([] : List (Exchange ω)) last) : last.state = first.state := by
  cases t with
  | nil steered => exact steered.state

theorem state_last (t : Trail first (earlier ++ [made]) last) : last.state = made.after.state := by
  have ⟨_, _, t⟩ := t.split
  cases t with
  | cons _ tail => exact tail.state_nil

theorem memo_grows_from (t : Trail first exchanges last) (hm : made ∈ exchanges) :
    made.after.memo.Grows last.memo := by
  obtain ⟨earlier, later, rfl⟩ := List.append_of_mem hm
  have ⟨_, _, t⟩ := t.split
  cases t with
  | cons _ tail => exact tail.memo_grows

end Trail

def Run.Waiting {ω : Type} (visit : List (Exchange ω)) (run : Run) : Prop :=
  ∀ made ∈ visit, ∀ (i : Nat) (entry : ResumeEntry), made.after.pending[i]? = some entry →
    ∃ payloads, Run.Retains i entry payloads run

namespace Run.Waiting

variable {ω : Type} {visit : List (Exchange ω)} {run : Run}

theorem start : Waiting ([] : List (Exchange ω)) run :=
  fun _ hm => nomatch hm

theorem exchange_after {last : Exchange ω} (h : Waiting visit last.run) :
    Waiting (visit ++ [last]) last.after := by
  intro made hm i entry there
  rcases List.mem_append.mp hm with hm | hm
  · have ⟨payloads, entry', kept, becomes⟩ := h made hm i entry there
    have ⟨payloads', entry'', kept', becomes'⟩ := Exchange.exists_retains kept
    exact ⟨payloads ++ payloads', entry'', kept', becomes.trans becomes'⟩
  · cases List.mem_singleton.mp hm
    exact ⟨[], .of_pending there rfl⟩

theorem upheld : Upheld (Waiting (ω := ω)) where
  held h _ same := fun made hm i entry there =>
    have ⟨payloads, kept⟩ := h made hm i entry there
    ⟨payloads, kept.of_same same⟩
  idle _ _ := start
  event {_ event} h := by
    cases event
    case exchange => exact exchange_after h
    case leave    => exact start

end Run.Waiting

namespace Workflow

variable {ω : Type} {workflow : Workflow ω} {now : Timestamp} {budget : Budget} {start : Run}

-- What a pass leaves of what it did. Leaving a step drops the waits of the step.
structure Keeps (workflow : Workflow ω) (now : Timestamp) (budget : Budget) (start : Run)
    (world : ω) (last : Run) : Prop where
  idle  : workflow.passExchanges now budget start world = [] → last.state = start.state
  state : ∀ earlier made, workflow.passExchanges now budget start world = earlier ++ [made] →
    last.state = made.after.state
  memo  : start.memo.Grows last.memo
  made  : ∀ made ∈ workflow.passExchanges now budget start world, made.after.memo.Grows last.memo
  waits : last.Waiting (Event.visit (workflow.passEvents now budget start world))

theorem execute_keeps (live : start.status.isClosed = false) (world : ω) :
    workflow.Keeps now budget start world (workflow.execute now budget start world).2.1 := by
  have trail := workflow.passTrail now budget start world
  have chronicle := workflow.passChronicle now budget start world
  exact {
    idle  := fun none => Trail.state_nil (none ▸ trail)
    state := fun earlier made cut => Trail.state_last (cut ▸ trail)
    memo  := trail.memo_grows
    made  := fun made hm => trail.memo_grows_from hm
    waits := (Run.Waiting.upheld.chronicle chronicle (fun _ => live_of_mem_passEvents)
      (execute_ends live) .start).at_end
  }

end Workflow

end DurableWorkflow
