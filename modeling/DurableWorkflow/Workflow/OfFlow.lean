import DurableWorkflow.Flow.Validation
import DurableWorkflow.Workflow.Basic

namespace DurableWorkflow

abbrev StepTask (ω : Type) := (state : Json) → (params : Option Json) → ω → ActionResult × ω

def StepTask.describe {ω : Type} (tasks : Dict (StepTask ω)) : String :=
  "Tasks \x7b steps: " ++ Text.quoteList tasks.keys ++ " \x7d"

namespace Flow

variable {ω : Type}

def advanceOrDone : Option String → StepOutcome
  | some next => .advance next
  | none => .done

def successor? (flow : Flow) (stepId : String) : Option String :=
  (flow.outgoing stepId).head?.map (·.target)

def passHandler (next : Option String) : HandlerM ω StepOutcome :=
  pure (advanceOrDone next)

def taskHandler (stepId : String) (task : StepTask ω) (params : Option Json)
    (next : Option String) : HandlerM ω StepOutcome := do
  let state ← HandlerM.state
  let output ← HandlerM.action stepId (fun _ => true) (task state params)
  if !output.value.isNull then
    HandlerM.setState output.value
  return advanceOrDone next

def firstBranch (state : Json) : List (Condition × String) → Outcome (Option String)
  | [] => .returned none
  | (condition, target) :: rest =>
    match condition.evaluate state with
    | .returned true => .returned (some target)
    | .returned false => firstBranch state rest
    | .panicked => .panicked

def decisionHandler (branches : List (Condition × String)) (fallback : Option String) :
    HandlerM ω StepOutcome := do
  match firstBranch (← HandlerM.state) branches with
  | .returned target => return advanceOrDone (target <|> fallback)
  | .panicked => HandlerM.panic

def delayHandler (stepId : String) (millis : Nat) (next : Option String) :
    HandlerM ω StepOutcome := do
  match ← HandlerM.waitMillis stepId millis with
  | some timer => return .suspend timer
  | none => return advanceOrDone next

-- What a delivered payload makes of the state: members of an object are set in an object.
def mergePayload (payload state : Json) : Json :=
  match payload with
  | .object members => state.merge members
  | _ => state

def eventHandler (stepId : String) (filter : Json) (next : Option String) :
    HandlerM ω StepOutcome := do
  match ← HandlerM.waitEvent stepId filter with
  | .event _ _ (some payload) =>
    HandlerM.putState (mergePayload payload (← HandlerM.state))
    return advanceOrDone next
  | entry => return .suspend entry

def branches : List Connection → Outcome (Except Error (List (Condition × String)))
  | [] => .returned (.ok [])
  | connection :: rest =>
    match connection.condition with
    | none => branches rest
    | some source => do
      match ← Condition.parse source with
      | .error error => return .error error
      | .ok condition => return (← branches rest).map ((condition, connection.target) :: ·)

def fallback? (connections : List Connection) : Option String :=
  (connections.find? (·.condition.isNone)).map (·.target)

-- Every step gets the handler of its kind: `begin` moves along the first connection, and `end`
-- finishes; a task is run once, its result replaces the state unless it is `null`, and the run
-- moves on; a decision takes the first connection whose condition holds, or else the first without
-- one; `resumeAfter` waits its duration, and `waitForEvent` for its event, whose members are merged
-- into the state.
def handlerOf (flow : Flow) (tasks : Dict (StepTask ω)) (step : Step) :
    Outcome (Except Error (Handler ω)) :=
  let next := flow.successor? step.id
  match step.kind with
  | .begin => return .ok (passHandler next)
  | .finish => return .ok (passHandler none)
  | .task params _ =>
    match tasks.get? step.id with
    | some task => return .ok (taskHandler step.id task params next)
    | none => return .error (.invalidFlow ("no task registered for step '" ++ step.id ++ "'"))
  | .decision => do
    let connections := flow.outgoing step.id
    return (← branches connections).map (decisionHandler · (fallback? connections))
  | .resumeAfter duration =>
    return (Duration.parse duration).map (delayHandler step.id · next)
  | .waitForEvent input _ =>
    return .ok (eventHandler step.id ((input.map (·.value)).getD .null) next)

def handlersOf (flow : Flow) (tasks : Dict (StepTask ω)) :
    List Step → Outcome (Except Error (List (String × Handler ω)))
  | [] => return .ok []
  | step :: rest => do
    match ← handlerOf flow tasks step with
    | .error error => return .error error
    | .ok handler => return (← handlersOf flow tasks rest).map ((step.id, handler) :: ·)

end Flow

namespace Workflow

variable {ω : Type}

-- The workflow of a flow. The id of the flow is the workflow type, and every task step needs a task
-- of its id.
def ofFlow (flow : Flow) (tasks : Dict (StepTask ω)) : Outcome (Except Error (Workflow ω)) := do
  match ← flow.validate with
  | [] =>
    match flow.beginStep? with
    | none => return .error (.invalidFlow "flow has no begin step")
    | some start =>
      match ← flow.handlersOf tasks flow.steps with
      | .error error => return .error error
      | .ok steps => return build flow.id start.id (flow.state.getD .empty) steps
  | errors => return .error (.invalidFlow (" ".intercalate (errors.map (·.message))))

end Workflow

end DurableWorkflow
