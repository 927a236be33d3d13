import DurableWorkflow.Proofs.Flow.WellFormed
import DurableWorkflow.Workflow.OfFlow

namespace DurableWorkflow

namespace Flow

variable {ω : Type} {flow : Flow} {tasks : Dict (StepTask ω)} {step : Step} {connection : Connection}

def Covered (flow : Flow) (tasks : Dict (StepTask ω)) : Prop :=
  ∀ step ∈ flow.steps, step.kind.isTask → (tasks.get? step.id).isSome

-- What the workflow of a flow consists of. Everything else about such workflows is proved from
-- this.
structure Compiles (flow : Flow) (tasks : Dict (StepTask ω)) (workflow : Workflow ω) : Prop where
  wellFormed   : flow.WellFormed
  workflowType : workflow.workflowType = flow.id
  initialState : workflow.initialState = flow.state.getD .empty
  startStep    : ∃ start, flow.beginStep? = some start ∧ workflow.startStep = start.id
  handlers     : ∀ step ∈ flow.steps, ∃ handler,
    flow.handlerOf tasks step = .returned (.ok handler) ∧ workflow.handler? step.id = some handler

theorem beginStep?_eq_some_iff {start : Step} :
    flow.beginStep? = some start ↔ flow.beginSteps = [start] := by
  rw [beginStep?]
  split <;> simp_all

theorem mem_of_beginStep? {start : Step} (h : flow.beginStep? = some start) :
    start ∈ flow.steps := by
  have hm : start ∈ flow.beginSteps := by simp [beginStep?_eq_some_iff.mp h]
  exact (List.mem_filter.mp hm).1

theorem mem_connections_of_outgoing {stepId : String} (h : connection ∈ flow.outgoing stepId) :
    connection ∈ flow.connections :=
  (List.mem_filter.mp h).1

theorem handlersOf_eq_ok {steps : List Step} {handlers : List (String × Handler ω)}
    (h : flow.handlersOf tasks steps = .returned (.ok handlers)) :
    handlers.map (·.1) = steps.map (·.id) ∧
      ∀ step ∈ steps, ∃ handler,
        flow.handlerOf tasks step = .returned (.ok handler) ∧ (step.id, handler) ∈ handlers := by
  induction steps generalizing handlers
  case nil =>
    cases h
    simp
  case cons step rest ih =>
    rw [handlersOf] at h
    have ⟨first, hf, h⟩ := Outcome.bind_eq_returned_iff.mp h
    cases first <;> simp only at h
    case error => cases h
    case ok handler =>
      have ⟨others, ho, h⟩ := Outcome.bind_eq_returned_iff.mp h
      cases others <;> cases h
      have ⟨ids, each⟩ := ih ho
      refine ⟨by simp [ids], fun other hm => ?_⟩
      rcases List.mem_cons.mp hm with rfl | hm
      · exact ⟨handler, hf, List.mem_cons_self⟩
      · have ⟨handler, hh, hm⟩ := each other hm
        exact ⟨handler, hh, List.mem_cons_of_mem _ hm⟩

theorem exists_handlersOf {steps : List Step}
    (h : ∀ step ∈ steps, ∃ handler, flow.handlerOf tasks step = .returned (.ok handler)) :
    ∃ handlers, flow.handlersOf tasks steps = .returned (.ok handlers) := by
  induction steps
  case nil => exact ⟨[], rfl⟩
  case cons step rest ih =>
    have ⟨handler, hh⟩ := h step List.mem_cons_self
    have ⟨handlers, hr⟩ := ih fun other hm => h other (List.mem_cons_of_mem _ hm)
    exact ⟨(step.id, handler) :: handlers, by simp [handlersOf, hh, hr, pure, Except.map]⟩

theorem exists_branches (connections : List Connection)
    (h : ∀ connection ∈ connections, ∀ source, connection.condition = some source →
      ∃ condition, Condition.parse source = .returned (.ok condition)) :
    ∃ found, branches connections = .returned (.ok found) := by
  induction connections
  case nil => exact ⟨[], rfl⟩
  case cons connection rest ih =>
    have ⟨found, hr⟩ := ih fun other hm => h other (List.mem_cons_of_mem _ hm)
    cases hc : connection.condition
    case none => exact ⟨found, by simp [branches, hc, hr]⟩
    case some source =>
      have ⟨condition, hp⟩ := h connection List.mem_cons_self source hc
      exact ⟨(condition, connection.target) :: found,
        by simp [branches, hc, hp, hr, pure, Except.map]⟩

theorem exists_handlerOf (h : flow.WellFormed)
    (covered : step.kind.isTask → (tasks.get? step.id).isSome) (hm : step ∈ flow.steps) :
    ∃ handler, flow.handlerOf tasks step = .returned (.ok handler) := by
  rw [handlerOf]
  cases hk : step.kind
  case task params schema =>
    have ⟨task, ht⟩ := Option.isSome_iff_exists.mp (covered (by rw [hk]; rfl))
    exact ⟨_, by simp only [ht]; rfl⟩
  case decision =>
    have ⟨found, hb⟩ := exists_branches (flow.outgoing step.id) fun connection hm =>
      h.conditions connection (mem_connections_of_outgoing hm)
    exact ⟨_, by simp only [hb]; rfl⟩
  case resumeAfter duration =>
    have ⟨millis, hd⟩ := h.durations step hm duration hk
    exact ⟨_, by simp only [hd]; rfl⟩
  all_goals exact ⟨_, rfl⟩

end Flow

namespace Workflow

variable {ω : Type} {flow : Flow} {tasks : Dict (StepTask ω)} {workflow : Workflow ω}

theorem ofFlow_compiles (h : ofFlow flow tasks = .returned (.ok workflow)) :
    flow.Compiles tasks workflow := by
  have ⟨errors, hv, h⟩ := Outcome.bind_eq_returned_iff.mp h
  cases errors <;> simp only at h
  case cons => cases h
  case nil =>
    cases hs : flow.beginStep? <;> simp only [hs] at h
    case none => cases h
    case some start =>
      have ⟨handlers, hh, h⟩ := Outcome.bind_eq_returned_iff.mp h
      cases handlers <;> simp only at h
      case error => cases h
      case ok handlers =>
        have wellFormed := Flow.validate_eq_nil_iff.mp hv
        have ⟨ids, each⟩ := Flow.handlersOf_eq_ok hh
        simp only [build, pure, Outcome.returned.injEq] at h
        split at h <;> cases h
        refine ⟨wellFormed, rfl, rfl, ⟨start, hs, rfl⟩, fun step hm => ?_⟩
        have ⟨handler, hf, hm⟩ := each step hm
        exact ⟨handler, hf, Dict.get?_ofPairs_of_mem (ids ▸ wellFormed.distinct) hm⟩

-- A flow without structural problems has a workflow as soon as its tasks are there.
theorem exists_ofFlow (h : flow.WellFormed) (covered : flow.Covered tasks) :
    ∃ workflow, ofFlow flow tasks = .returned (.ok workflow) := by
  have ⟨start, begins⟩ := h.begins
  have hs : flow.beginStep? = some start := Flow.beginStep?_eq_some_iff.mpr begins
  have ⟨handlers, hh⟩ :=
    Flow.exists_handlersOf fun step hm => Flow.exists_handlerOf h (covered step hm) hm
  have ⟨ids, each⟩ := Flow.handlersOf_eq_ok hh
  have ⟨handler, _, hm⟩ := each start (Flow.mem_of_beginStep? hs)
  have contains : (Dict.ofPairs handlers).contains start.id := by
    rw [Dict.contains, Dict.get?_ofPairs_of_mem (ids ▸ h.distinct) hm]
    rfl
  rw [ofFlow, Flow.validate_eq_nil_iff.mpr h]
  simp only [Outcome.returned_bind, hs, hh, build, contains]
  exact ⟨_, rfl⟩

end Workflow

end DurableWorkflow
