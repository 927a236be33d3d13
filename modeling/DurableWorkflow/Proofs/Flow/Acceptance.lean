import DurableWorkflow.Proofs.Flow.Diagnosis
import DurableWorkflow.Proofs.Flow.Exits
import DurableWorkflow.Proofs.Memo.Audit

namespace DurableWorkflow

namespace Flow

variable {ω : Type} {flow : Flow} {tasks : Dict (StepTask ω)} {workflow : Workflow ω} {step : Step}
  {handler : Handler ω}

structure Makes (flow : Flow) (workflow : Workflow ω) : Prop where
  workflowType : workflow.workflowType = flow.id
  startStep    : ∃ start, flow.beginSteps = [start] ∧ workflow.startStep = start.id
  registered   : workflow.stepIds.Perm flow.stepIds
  closed : ∀ stepId handler, workflow.handler? stepId = some handler → ∀ now run world next,
    (Script.run now handler.run run world).1 = .returned (.ok (.advance next)) →
      next ∈ workflow.stepIds

theorem handlerOf_of_missing (flow : Flow)
    (h : ¬ (step.kind.isTask → (tasks.get? step.id).isSome)) :
    ∃ message, flow.handlerOf tasks step = .returned (.error (.invalidFlow message)) := by
  obtain ⟨isTask, missing⟩ := Classical.not_imp.mp h
  rw [handlerOf]
  cases kind : step.kind <;> rw [kind] at isTask <;> try cases isTask
  cases given : tasks.get? step.id
  case none => exact ⟨_, rfl⟩
  case some =>
    rw [given] at missing
    exact absurd rfl missing

theorem hasTask_of_handlerOf (h : flow.handlerOf tasks step = .returned (.ok handler)) :
    step.kind.isTask → (tasks.get? step.id).isSome := by
  refine Classical.not_not.mp fun missing => ?_
  obtain ⟨_, refused⟩ := handlerOf_of_missing flow missing
  cases h.symm.trans refused

-- By induction on the steps: those before the first one without a task have handlers.
theorem handlersOf_of_missing (h : flow.WellFormed) {steps : List Step}
    (known : ∀ step ∈ steps, step ∈ flow.steps)
    (missing : ∃ step ∈ steps, ¬ (step.kind.isTask → (tasks.get? step.id).isSome)) :
    ∃ message, flow.handlersOf tasks steps = .returned (.error (.invalidFlow message)) := by
  induction steps
  case nil =>
    obtain ⟨_, hm, _⟩ := missing
    cases hm
  case cons step rest ih =>
    obtain ⟨here, known⟩ := List.forall_mem_cons.mp known
    by_cases covered : step.kind.isTask → (tasks.get? step.id).isSome
    case neg =>
      obtain ⟨message, refused⟩ := handlerOf_of_missing flow covered
      exact ⟨message, by rw [handlersOf, refused]; rfl⟩
    case pos =>
      have later : ∃ step ∈ rest, ¬ (step.kind.isTask → (tasks.get? step.id).isSome) := by
        obtain ⟨other, hm, uncovered⟩ := missing
        rcases List.mem_cons.mp hm with rfl | hm
        · exact absurd covered uncovered
        · exact ⟨other, hm, uncovered⟩
      obtain ⟨handler, made⟩ := exists_handlerOf h covered here
      obtain ⟨message, refused⟩ := ih known later
      exact ⟨message, by rw [handlersOf, made, Outcome.returned_bind, refused]; rfl⟩

end Flow

namespace Workflow

variable {ω : Type} {flow : Flow} {tasks : Dict (StepTask ω)} {workflow : Workflow ω}

theorem covered_of_ofFlow (h : ofFlow flow tasks = .returned (.ok workflow)) :
    flow.Covered tasks := by
  intro step hm
  have ⟨handler, made, _⟩ := (ofFlow_compiles h).handlers step hm
  exact Flow.hasTask_of_handlerOf made

theorem ofFlow_of_panicked (h : flow.validate = .panicked) : ofFlow flow tasks = .panicked := by
  rw [ofFlow, h]
  rfl

theorem ofFlow_refuses (readable : flow.Readable)
    (h : ¬ (flow.WellFormed ∧ flow.Covered tasks)) :
    ∃ message, ofFlow flow tasks = .returned (.error (.invalidFlow message)) := by
  cases validated : flow.validate
  case panicked => exact absurd readable (Flow.validate_eq_panicked_iff.mp validated)
  case returned errors =>
    cases errors
    case cons => exact ⟨_, by rw [ofFlow, validated]; rfl⟩
    case nil =>
      have wellFormed := Flow.validate_eq_nil_iff.mp validated
      have missing : ∃ step ∈ flow.steps, ¬ (step.kind.isTask → (tasks.get? step.id).isSome) := by
        simpa [Flow.Covered] using fun covered => h ⟨wellFormed, covered⟩
      obtain ⟨start, begins⟩ := wellFormed.begins
      obtain ⟨message, refused⟩ := Flow.handlersOf_of_missing wellFormed (fun _ => id) missing
      refine ⟨message, ?_⟩
      rw [ofFlow, validated, Outcome.returned_bind]
      simp only [Flow.beginStep?_eq_some_iff.mpr begins, refused]
      rfl

theorem mem_stepIds_iff (h : ofFlow flow tasks = .returned (.ok workflow)) {stepId : String} :
    stepId ∈ workflow.stepIds ↔ stepId ∈ flow.stepIds := by
  rw [stepIds, Dict.mem_keys_iff, Option.ne_none_iff_exists']
  constructor
  case mp =>
    rintro ⟨handler, known⟩
    obtain ⟨step, hm, rfl⟩ := exists_step_of_ofFlow h known
    exact List.mem_map_of_mem hm
  case mpr =>
    intro hid
    obtain ⟨step, hm, rfl⟩ := List.mem_map.mp hid
    have ⟨handler, _, known⟩ := (ofFlow_compiles h).handlers step hm
    exact ⟨handler, known⟩

theorem ofFlow_makes (h : ofFlow flow tasks = .returned (.ok workflow)) : flow.Makes workflow := by
  have compiles := ofFlow_compiles h
  have ⟨start, begins, at_start⟩ := compiles.startStep
  refine {
    workflowType := compiles.workflowType
    startStep    := ⟨start, Flow.beginStep?_eq_some_iff.mp begins, at_start⟩
    registered   := ?registered
    closed       := ?closed
  }
  case registered =>
    exact (List.perm_ext_iff_of_nodup workflow.handlers.nodup_keys compiles.wellFormed.distinct).mpr
      fun _ => mem_stepIds_iff h
  case closed =>
    intro stepId handler known now run world next advances
    exact (mem_stepIds_iff h).mpr ((moves_of_advance h known advances).target compiles.wellFormed)

structure Acceptance (flow : Flow) (tasks : Dict (StepTask ω)) : Prop where
  accepted : (∃ workflow, ofFlow flow tasks = .returned (.ok workflow)) ↔
    flow.WellFormed ∧ flow.Covered tasks
  refused : flow.Readable → ¬ (flow.WellFormed ∧ flow.Covered tasks) →
    ∃ message, ofFlow flow tasks = .returned (.error (.invalidFlow message))
  broken : ofFlow flow tasks = .panicked ↔ ¬ flow.Readable
  makes : ∀ workflow, ofFlow flow tasks = .returned (.ok workflow) → flow.Makes workflow

-- Exactly the well-formed flows with all their tasks are accepted: once validation has found
-- nothing, nothing else can go wrong but that a task is missing.
theorem acceptance (flow : Flow) (tasks : Dict (StepTask ω)) : Acceptance flow tasks := by
  have accepted : (∃ workflow, ofFlow flow tasks = .returned (.ok workflow)) ↔
      flow.WellFormed ∧ flow.Covered tasks :=
    ⟨fun ⟨_, h⟩ => ⟨(ofFlow_compiles h).wellFormed, covered_of_ofFlow h⟩,
      fun ⟨wellFormed, covered⟩ => exists_ofFlow wellFormed covered⟩
  refine { accepted, refused := ofFlow_refuses, broken := ?broken, makes := fun _ => ofFlow_makes }
  refine ⟨fun broken readable => ?_, fun unreadable => ?_⟩
  · by_cases h : flow.WellFormed ∧ flow.Covered tasks
    case pos =>
      have ⟨_, made⟩ := accepted.mpr h
      cases broken.symm.trans made
    case neg =>
      have ⟨_, refused⟩ := ofFlow_refuses readable h
      cases broken.symm.trans refused
  · exact ofFlow_of_panicked (Flow.validate_eq_panicked_iff.mpr unreadable)

end Workflow

end DurableWorkflow
