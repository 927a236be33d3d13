import DurableWorkflow.Proofs.Handler.Running
import DurableWorkflow.Workflow.OfFlow

namespace DurableWorkflow.Flow

variable {ω : Type} {now : Timestamp} {run : Run} {world : ω} {stepId : String}
  {next : Option String}

theorem run_taskHandler {task : StepTask ω} {params : Option Json} :
    Script.run now (taskHandler stepId task params next).run run world =
      match run.performAction now stepId (fun _ => true) (task run.state params) world with
      | (.returned (.ok output), run, world) =>
        if output.value.isNull then (.returned (.ok (advanceOrDone next)), run, world)
        else
          let (reply, run) := run.setState output.value
          (.returned (reply.map fun _ => advanceOrDone next), run, world)
      | (.returned (.error error), run, world) => (.returned (.error error), run, world)
      | (.panicked, run, world)                => (.panicked, run, world) := by
  rw [taskHandler, HandlerM.run_bind, HandlerM.run_state]
  dsimp only
  rw [HandlerM.run_bind, HandlerM.run_action]
  rcases run.performAction now stepId (fun _ => true) (task run.state params) world with
    ⟨(error | output) | _, after, world⟩
  case returned.error => rfl
  case panicked       => rfl
  case returned.ok =>
    cases hn : output.value.isNull <;> dsimp only <;> rw [hn]
    case true => rfl
    case false =>
      refine (HandlerM.run_bind (HandlerM.setState output.value) _).trans ?_
      rw [HandlerM.run_setState]
      rcases after.setState output.value with ⟨_ | _, last⟩ <;> rfl

theorem run_decisionHandler {branches : List (Condition × String)} {fallback : Option String} :
    Script.run now (decisionHandler branches fallback).run run world =
      match firstBranch run.state branches with
      | .returned target => (.returned (.ok (advanceOrDone (target <|> fallback))), run, world)
      | .panicked        => (.panicked, run, world) := by
  rw [decisionHandler, HandlerM.run_bind, HandlerM.run_state]
  dsimp only
  cases firstBranch run.state branches <;> rfl

theorem run_delayHandler {millis : Nat} :
    Script.run now (delayHandler stepId millis next : HandlerM ω _).run run world =
      match run.waitMillis now stepId millis with
      | (.ok (some timer), run) => (.returned (.ok (.suspend timer)), run, world)
      | (.ok none, run)         => (.returned (.ok (advanceOrDone next)), run, world)
      | (.error error, run)     => (.returned (.error error), run, world) := by
  rw [delayHandler, HandlerM.run_bind, HandlerM.run_waitMillis]
  rcases run.waitMillis now stepId millis with ⟨_ | _ | _, after⟩ <;> rfl

theorem run_eventHandler {filter : Json} :
    Script.run now (eventHandler stepId filter next : HandlerM ω _).run run world =
      match run.waitEvent stepId filter with
      | (.ok (.event _ _ (some payload)), run) =>
        (.returned (.ok (advanceOrDone next)), { run with state := mergePayload payload run.state },
          world)
      | (.ok entry, run)    => (.returned (.ok (.suspend entry)), run, world)
      | (.error error, run) => (.returned (.error error), run, world) := by
  rw [eventHandler, HandlerM.run_bind, HandlerM.run_waitEvent]
  rcases run.waitEvent stepId filter with ⟨_ | entry, after⟩
  case error => rfl
  case ok =>
    cases entry
    case timer => rfl
    case event _ _ delivered => cases delivered <;> rfl

theorem exchanges_taskHandler {task : StepTask ω} {params : Option Json} :
    Script.exchanges now (taskHandler stepId task params next).run run world =
      ⟨now, .look, run, world⟩ ::
        ⟨now, .action stepId (fun _ => true) (task run.state params), run, world⟩ ::
          match run.performAction now stepId (fun _ => true) (task run.state params) world with
          | (.returned (.ok output), run, world) =>
            if output.value.isNull then [] else [⟨now, .setState output.value, run, world⟩]
          | (.returned (.error _), _, _) => []
          | (.panicked, _, _)            => [] := by
  rw [taskHandler, HandlerM.exchanges_bind, HandlerM.exchanges_state, HandlerM.run_state]
  dsimp only
  rw [HandlerM.exchanges_bind, HandlerM.exchanges_action, HandlerM.run_action]
  rcases run.performAction now stepId (fun _ => true) (task run.state params) world with
    ⟨(error | output) | _, after, world⟩
  case returned.error => rfl
  case panicked       => rfl
  case returned.ok =>
    cases hn : output.value.isNull <;> dsimp only <;> rw [hn]
    case true => rfl
    case false =>
      refine congrArg _ (congrArg _ ?_)
      refine (HandlerM.exchanges_bind (HandlerM.setState output.value) _).trans ?_
      rw [HandlerM.exchanges_setState, HandlerM.run_setState]
      rcases after.setState output.value with ⟨_ | _, last⟩ <;> rfl

theorem exchanges_decisionHandler {branches : List (Condition × String)}
    {fallback : Option String} :
    Script.exchanges now (decisionHandler branches fallback : HandlerM ω _).run run world =
      [⟨now, .look, run, world⟩] := by
  rw [decisionHandler, HandlerM.exchanges_bind, HandlerM.exchanges_state, HandlerM.run_state]
  dsimp only
  cases firstBranch run.state branches <;> rfl

theorem exchanges_delayHandler {millis : Nat} :
    Script.exchanges now (delayHandler stepId millis next : HandlerM ω _).run run world =
      [⟨now, .waitMillis stepId millis, run, world⟩] := by
  rw [delayHandler, HandlerM.exchanges_bind, HandlerM.exchanges_waitMillis, HandlerM.run_waitMillis]
  rcases run.waitMillis now stepId millis with ⟨_ | _ | _, after⟩ <;> rfl

theorem exchanges_eventHandler {filter : Json} :
    Script.exchanges now (eventHandler stepId filter next : HandlerM ω _).run run world =
      ⟨now, .waitEvent stepId filter, run, world⟩ ::
        match run.waitEvent stepId filter with
        | (.ok (.event _ _ (some payload)), run) =>
          [⟨now, .look, run, world⟩,
            ⟨now, .putState (mergePayload payload run.state), run, world⟩]
        | _ => [] := by
  rw [eventHandler, HandlerM.exchanges_bind, HandlerM.exchanges_waitEvent, HandlerM.run_waitEvent]
  rcases run.waitEvent stepId filter with ⟨_ | entry, after⟩
  case error => rfl
  case ok =>
    cases entry
    case timer => rfl
    case event _ _ delivered => cases delivered <;> rfl

end DurableWorkflow.Flow
