import DurableWorkflow.Proofs.Flow.Failure
import DurableWorkflow.Proofs.Flow.Unpaused
import DurableWorkflow.Proofs.Workflow.Budget
import DurableWorkflow.Proofs.Workflow.Waits

namespace DurableWorkflow

namespace Flow

variable {ω : Type}

-- A decision may go along any connection that leaves it; other steps go along the first one.
def exits (flow : Flow) (step : Step) : List Connection :=
  match step.kind with
  | .finish   => []
  | .decision => flow.outgoing step.id
  | _         => (flow.outgoing step.id).take 1

inductive Moves (flow : Flow) : String → String → Prop
  | along {step : Step} {connection : Connection} (known : step ∈ flow.steps)
      (exit : connection ∈ flow.exits step) : Moves flow step.id connection.target

inductive Breaks (flow : Flow) (tasks : Dict (StepTask ω)) (step : Step) : Prop
  | task {params schema : Option Json} {task : StepTask ω} {state : Json} {world : ω}
      (kind   : step.kind = .task params schema)
      (given  : tasks.get? step.id = some task)
      (panics : (task state params world).1 = .panicked)
  | condition {connection : Connection} {state : Json}
      (leaves : connection ∈ flow.outgoing step.id)
      (panics : connection.holds state = .panicked)

def Steady (flow : Flow) (tasks : Dict (StepTask ω)) : Prop :=
  ∀ step ∈ flow.steps, ¬ flow.Breaks tasks step

inductive Comes (flow : Flow) (tasks : Dict (StepTask ω)) (step : Step) :
    Outcome (Except Error StepOutcome) → Prop
  | advances {connection : Connection} (exit : connection ∈ flow.exits step) :
    Comes flow tasks step (.returned (.ok (.advance connection.target)))
  | done : Comes flow tasks step (.returned (.ok .done))
  | suspends {entry : ResumeEntry} : Comes flow tasks step (.returned (.ok (.suspend entry)))
  -- No limit on handlers is known to the handlers themselves.
  | fails {error : Error} (modest : ∀ limit at', error ≠ .stepLimitExceeded limit at') :
    Comes flow tasks step (.returned (.error error))
  | panics (breaks : flow.Breaks tasks step) : Comes flow tasks step .panicked

variable {flow : Flow} {tasks : Dict (StepTask ω)} {step : Step} {now : Timestamp} {run : Run}
  {world : ω} {next : Option String}

theorem exits_sublist : (flow.exits step).Sublist (flow.outgoing step.id) := by
  rw [exits]
  cases step.kind
  case finish   => exact List.nil_sublist _
  case decision => exact .refl _
  all_goals exact List.take_sublist _ _

theorem mem_outgoing_of_exits {connection : Connection} (h : connection ∈ flow.exits step) :
    connection ∈ flow.outgoing step.id :=
  exits_sublist.subset h

def LeadsOut (flow : Flow) (step : Step) (next : Option String) : Prop :=
  ∀ target ∈ next, ∃ connection ∈ flow.exits step, connection.target = target

theorem leadsOut_successor? (h : flow.exits step = (flow.outgoing step.id).take 1) :
    flow.LeadsOut step (flow.successor? step.id) := by
  intro target there
  obtain ⟨connection, first, rfl⟩ := Option.map_eq_some_iff.mp there
  refine ⟨connection, ?_, rfl⟩
  obtain ⟨rest, outgoing⟩ := List.head?_eq_some_iff.mp first
  rw [h, outgoing]
  exact List.mem_singleton_self _

theorem Comes.advanceOrDone (h : flow.LeadsOut step next) :
    flow.Comes tasks step (.returned (.ok (advanceOrDone next))) := by
  cases next
  case none => exact .done
  case some target =>
    obtain ⟨connection, exit, rfl⟩ := h target rfl
    exact .advances exit

theorem comes_taskHandler {task : StepTask ω} {params schema : Option Json}
    (kind : step.kind = .task params schema) (given : tasks.get? step.id = some task)
    (h : flow.LeadsOut step next) :
    flow.Comes tasks step
      (Script.run now (taskHandler step.id task params next).run run world).1 := by
  rw [run_taskHandler]
  rcases performed : run.performAction now step.id (fun _ => true) (task run.state params) world with
    ⟨(error | output) | _, after, world'⟩
  case returned.error =>
    obtain ⟨message, rfl, _⟩ := performAction_failed performed
    exact .fails (by rintro _ _ ⟨⟩)
  case returned.ok =>
    dsimp only
    split
    case isTrue  => exact .advanceOrDone h
    case isFalse =>
      rw [Run.setState]
      split
      case isTrue  => exact .fails (by rintro _ _ ⟨⟩)
      case isFalse => exact .advanceOrDone h
  case panicked =>
    refine .panics (.task kind given (?_ : (task run.state params world).1 = .panicked))
    have invoked := performAction_panicked performed
    rw [Exchange.invocations_of_action rfl] at invoked
    split at invoked
    case isTrue  => cases invoked
    case isFalse => exact (List.cons.inj invoked).1

theorem comes_decisionHandler {found : List (Condition × String)}
    (kind : step.kind = .decision)
    (h : branches (flow.outgoing step.id) = .returned (.ok found)) :
    flow.Comes tasks step
      (Script.run now (decisionHandler found (fallback? (flow.outgoing step.id))).run run
        world).1 := by
  have exits : flow.exits step = flow.outgoing step.id := by rw [exits, kind]
  rw [run_decisionHandler, firstBranch_eq h]
  cases hf : firstHolding run.state (flow.outgoing step.id)
  case panicked =>
    obtain ⟨connection, leaves, panics⟩ := exists_of_firstHolding_panicked hf
    exact .panics (.condition leaves panics)
  case returned chosen =>
    refine .advanceOrDone ?_
    intro target there
    rw [exits]
    cases chosen
    case some connection =>
      cases there
      exact ⟨connection, mem_of_firstHolding hf, rfl⟩
    case none =>
      obtain ⟨connection, first, same⟩ := Option.map_eq_some_iff.mp there
      exact ⟨connection, List.mem_of_find?_eq_some first, same⟩

theorem comes_delayHandler {millis : Nat} (h : flow.LeadsOut step next) :
    flow.Comes tasks step
      (Script.run now (delayHandler step.id millis next : HandlerM ω _).run run world).1 := by
  rw [run_delayHandler]
  rcases waited : run.waitMillis now step.id millis with ⟨error | _ | timer, after⟩
  case error =>
    obtain ⟨rfl, _⟩ := Run.refused_waitMillis (congrArg Prod.fst waited)
    exact .fails (by rintro _ _ ⟨⟩)
  case ok.none => exact .advanceOrDone h
  case ok.some => exact .suspends

theorem comes_eventHandler {filter : Json} (h : flow.LeadsOut step next) :
    flow.Comes tasks step
      (Script.run now (eventHandler step.id filter next : HandlerM ω _).run run world).1 := by
  rw [run_eventHandler]
  rcases waited : run.waitEvent step.id filter with ⟨error | entry, after⟩
  case error =>
    obtain ⟨rfl, _⟩ := Run.refused_waitEvent (congrArg Prod.fst waited)
    exact .fails (by rintro _ _ ⟨⟩)
  case ok =>
    rcases entry with _ | ⟨_, _, _ | payload⟩
    case timer      => exact .suspends
    case event.none => exact .suspends
    case event.some => exact .advanceOrDone h

theorem comes_of_handlerOf {handler : Handler ω}
    (h : flow.handlerOf tasks step = .returned (.ok handler)) (now : Timestamp) (run : Run)
    (world : ω) : flow.Comes tasks step (Script.run now handler.run run world).1 := by
  rw [handlerOf] at h
  cases kind : step.kind <;> simp only [kind] at h
  case begin =>
    cases h
    exact .advanceOrDone (leadsOut_successor? (by rw [exits, kind]))
  case finish =>
    cases h
    exact .done
  case task params schema =>
    cases given : tasks.get? step.id <;> simp only [given] at h <;> cases h
    exact comes_taskHandler kind given (leadsOut_successor? (by rw [exits, kind]))
  case decision =>
    obtain ⟨found, hb, h⟩ := Outcome.bind_eq_returned_iff.mp h
    cases found <;> cases h
    exact comes_decisionHandler kind hb
  case resumeAfter duration =>
    cases hd : Duration.parse duration <;> rw [hd] at h <;> cases h
    exact comes_delayHandler (leadsOut_successor? (by rw [exits, kind]))
  case waitForEvent input output =>
    cases h
    exact comes_eventHandler (leadsOut_successor? (by rw [exits, kind]))

theorem Moves.known {id target : String} (h : flow.Moves id target) : id ∈ flow.stepIds := by
  cases h with
  | along known => exact List.mem_map_of_mem known

theorem Moves.target {id target : String} (h : flow.Moves id target)
    (wellFormed : flow.WellFormed) : target ∈ flow.stepIds := by
  cases h with
  | along _ exit =>
    exact wellFormed.targets _ (mem_connections_of_outgoing (mem_outgoing_of_exits exit))

end Flow

namespace Workflow

variable {ω : Type} {flow : Flow} {tasks : Dict (StepTask ω)} {workflow : Workflow ω}
  {stepId : String} {handler : Handler ω}

theorem exists_comes (h : ofFlow flow tasks = .returned (.ok workflow))
    (known : workflow.handler? stepId = some handler) (now : Timestamp) (run : Run) (world : ω) :
    ∃ step ∈ flow.steps, step.id = stepId ∧
      flow.Comes tasks step (Script.run now handler.run run world).1 := by
  obtain ⟨step, hm, rfl⟩ := exists_step_of_ofFlow h known
  have ⟨found, made, same⟩ := (ofFlow_compiles h).handlers step hm
  cases known.symm.trans same
  exact ⟨step, hm, rfl, Flow.comes_of_handlerOf made now run world⟩

-- The handlers of a flow move runs as the flow admits.
theorem moves_of_advance (h : ofFlow flow tasks = .returned (.ok workflow))
    (known : workflow.handler? stepId = some handler) {now : Timestamp} {run : Run} {world : ω}
    {next : String}
    (advances : (Script.run now handler.run run world).1 = .returned (.ok (.advance next))) :
    flow.Moves stepId next := by
  obtain ⟨step, hm, rfl, comes⟩ := exists_comes h known now run world
  rw [advances] at comes
  cases comes with
  | advances exit => exact .along hm exit

theorem ofFlow_modest (h : ofFlow flow tasks = .returned (.ok workflow)) (now : Timestamp) :
    workflow.Modest now := by
  intro stepId handler known run world limit at' exceeded
  obtain ⟨_, _, _, comes⟩ := exists_comes h known now run world
  rw [exceeded] at comes
  cases comes with
  | fails modest => exact modest limit at' rfl

end Workflow

end DurableWorkflow
