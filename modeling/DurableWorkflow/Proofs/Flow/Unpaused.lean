import DurableWorkflow.Proofs.Flow.Compilation
import DurableWorkflow.Proofs.Workflow.Flight

namespace DurableWorkflow

namespace Flow

variable {ω : Type} {stepId : String} {next : Option String}

theorem unpaused_taskHandler {task : StepTask ω} {params : Option Json} :
    Script.Unpaused (taskHandler stepId task params next).run := by
  refine HandlerM.unpaused_bind HandlerM.unpaused_state fun state => ?_
  refine HandlerM.unpaused_bind HandlerM.unpaused_action fun output => ?_
  cases output.value.isNull
  case true  => exact .pure _
  case false => exact HandlerM.unpaused_bind HandlerM.unpaused_setState fun _ => .pure _

theorem unpaused_decisionHandler {branches : List (Condition × String)}
    {fallback : Option String} :
    Script.Unpaused (decisionHandler branches fallback : HandlerM ω _).run := by
  refine HandlerM.unpaused_bind HandlerM.unpaused_state fun state => ?_
  cases firstBranch state branches
  case returned => exact .pure _
  case panicked => exact .panic

theorem unpaused_delayHandler {millis : Nat} :
    Script.Unpaused (delayHandler stepId millis next : HandlerM ω _).run := by
  refine HandlerM.unpaused_bind HandlerM.unpaused_waitMillis fun timer => ?_
  cases timer <;> exact .pure _

theorem unpaused_eventHandler {filter : Json} :
    Script.Unpaused (eventHandler stepId filter next : HandlerM ω _).run := by
  refine HandlerM.unpaused_bind HandlerM.unpaused_waitEvent fun entry => ?_
  rcases entry with _ | ⟨_, _, _ | payload⟩
  case timer => exact .pure _
  case event.none => exact .pure _
  case event.some =>
    refine HandlerM.unpaused_bind HandlerM.unpaused_state fun state => ?_
    exact HandlerM.unpaused_bind HandlerM.unpaused_putState fun _ => .pure _

variable {flow : Flow} {tasks : Dict (StepTask ω)}

theorem unpaused_of_handlerOf {step : Step} {handler : Handler ω}
    (h : flow.handlerOf tasks step = .returned (.ok handler)) : Script.Unpaused handler.run := by
  rw [handlerOf] at h
  cases hk : step.kind <;> simp only [hk] at h
  case begin  => cases h; exact .pure _
  case finish => cases h; exact .pure _
  case task =>
    cases ht : tasks.get? step.id <;> simp only [ht] at h <;> cases h
    exact unpaused_taskHandler
  case decision =>
    obtain ⟨found, _, h⟩ := Outcome.bind_eq_returned_iff.mp h
    cases found <;> cases h
    exact unpaused_decisionHandler
  case resumeAfter duration =>
    cases hd : Duration.parse duration <;> rw [hd] at h <;> cases h
    exact unpaused_delayHandler
  case waitForEvent => cases h; exact unpaused_eventHandler

end Flow

namespace Workflow

variable {ω : Type} {flow : Flow} {tasks : Dict (StepTask ω)} {workflow : Workflow ω}

theorem exists_step_of_ofFlow {stepId : String} {handler : Handler ω}
    (h : ofFlow flow tasks = .returned (.ok workflow))
    (known : workflow.handler? stepId = some handler) : ∃ step ∈ flow.steps, step.id = stepId := by
  have ⟨errors, _, h⟩ := Outcome.bind_eq_returned_iff.mp h
  cases errors <;> simp only at h
  case cons => cases h
  case nil =>
    cases hs : flow.beginStep? <;> simp only [hs] at h
    case none => cases h
    case some start =>
      have ⟨handlers, hh, h⟩ := Outcome.bind_eq_returned_iff.mp h
      cases handlers <;> simp only at h
      case error => cases h
      case ok handlers =>
        simp only [build, pure, Outcome.returned.injEq] at h
        split at h <;> cases h
        have hm : (stepId, handler) ∈ handlers := Dict.mem_of_get?_ofPairs known
        have ids := (Flow.handlersOf_eq_ok hh).1
        have hid : stepId ∈ flow.steps.map (·.id) := ids ▸ List.mem_map_of_mem hm
        exact List.mem_map.mp hid

theorem ofFlow_unpaused (h : ofFlow flow tasks = .returned (.ok workflow)) :
    workflow.Unpaused := by
  intro stepId handler known
  obtain ⟨step, hm, rfl⟩ := exists_step_of_ofFlow h known
  have ⟨found, made, same⟩ := (ofFlow_compiles h).handlers step hm
  cases known.symm.trans same
  exact Flow.unpaused_of_handlerOf made

end Workflow

end DurableWorkflow
