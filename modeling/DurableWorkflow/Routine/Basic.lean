import DurableWorkflow.Data.Word
import DurableWorkflow.Json.Printer
import DurableWorkflow.Run.Document
import DurableWorkflow.Tally
import DurableWorkflow.Workflow.Basic

namespace DurableWorkflow

structure ScriptedAction where
  value : Json
  error : Option String
  failures : Option Nat

namespace ScriptedAction

def result (action : ScriptedAction) (n : Nat) : ActionResult :=
  match action.error, action.failures with
  | some message, none => .failed message
  | some message, some failures => if n ≤ failures then .failed message else .returned action.value
  | none, _ => .returned action.value

end ScriptedAction

-- Steps written as lists of instructions. While a routine runs it may hold one entry, to suspend on
-- later.
inductive Instruction
  -- Perform an action and set its value in the state at `target`. With a `suffix` the compact text
  -- of that member of the state is appended to the key.
  | action (key : String) (suffix : Option String) (action : ScriptedAction)
    (target : Option String)
  | timer (key : String) (millis : Nat)
  | arm (key : String) (millis : Nat)
  | event (key : String) (filter : Json) (target next : Option String)
  -- As `event`, but hold an event that is not delivered yet.
  | listen (key : String) (filter : Json) (target next : Option String)
  | park
  | set (key : String) (value : Json)
  | increment (key : String)
  | state (value : Json)
  | branch (key : String) (expected : Json) (equal different : List Instruction)
  | goto (step : String)
  | done
  | fail (message : String)
  | suspend (entry : Json)
  | pause (millis : Nat)

instance : Inhabited Instruction := ⟨.done⟩

abbrev Routine := List Instruction

namespace Routine

inductive Pace
  | decided (outcome : StepOutcome)
  | goOn (held : Option ResumeEntry)

def giveUp {α : Type} (message : String) : HandlerM Tally α := do
  throw (.handler (← HandlerM.look).currentStep message)

def putAt (target : Option String) (value : Json) : HandlerM Tally Unit :=
  match target with
  | some key => HandlerM.put key value
  | none => pure ()

def actionKey (state : Json) (key : String) : Option String → String
  | some suffix => key ++ "-" ++ (state.field suffix).render
  | none => key

def perform (workflow key : String) (suffix : Option String) (action : ScriptedAction) :
    HandlerM Tally Json := do
  let key := actionKey (← HandlerM.state) key suffix
  let output ← HandlerM.action key (fun _ => true) fun tally =>
    let (n, tally) := tally.next workflow key
    (action.result n, tally)
  return output.value

def await (key : String) (filter : Json) (target next : Option String) (held : Option ResumeEntry)
    (waiting : ResumeEntry → Pace) : HandlerM Tally Pace := do
  match ← HandlerM.waitEvent key filter with
  | .event _ _ (some payload) =>
    putAt target payload
    return match next with
      | some step => .decided (.advance step)
      | none => .goOn held
  | entry => return waiting entry

def increment (key : String) : HandlerM Tally Unit := do
  let count := ((← HandlerM.state).field key).asInt64?.getD 0
  if count = Word.maxSigned then HandlerM.panic
  else HandlerM.put key (.int (count + 1))

mutual

def step (workflow : String) (held : Option ResumeEntry) : Instruction → HandlerM Tally Pace
  | .action key suffix action target => do
    putAt target (← perform workflow key suffix action)
    return .goOn held
  | .timer key millis => do
    match ← HandlerM.waitMillis key millis with
    | some entry => return .decided (.suspend entry)
    | none => return .goOn held
  | .arm key millis => return .goOn ((← HandlerM.waitMillis key millis) <|> held)
  | .event key filter target next =>
    await key filter target next held fun entry => .decided (.suspend entry)
  | .listen key filter target next =>
    await key filter target next held fun entry => .goOn (some entry)
  | .park =>
    match held with
    | some entry => return .decided (.suspend entry)
    | none => giveUp "nothing to park on"
  | .set key value => do
    HandlerM.put key value
    return .goOn held
  | .increment key => do
    increment key
    return .goOn held
  | .state value => do
    HandlerM.setState value
    return .goOn held
  | .branch key expected equal different => do
    if ((← HandlerM.state).field key).equals expected then steps workflow held equal
    else steps workflow held different
  | .goto step => return .decided (.advance step)
  | .done => return .decided .done
  | .fail message => giveUp message
  | .suspend entry =>
    match ResumeEntry.ofJson? entry with
    | some entry => return .decided (.suspend entry)
    | none => throw .serialization
  | .pause millis => do
    HandlerM.pause millis
    return .goOn held

def steps (workflow : String) (held : Option ResumeEntry) : List Instruction → HandlerM Tally Pace
  | [] => return .goOn held
  | instruction :: rest => do
    match ← step workflow held instruction with
    | .goOn held => steps workflow held rest
    | .decided outcome => return .decided outcome

end

def handler (workflow : String) (routine : Routine) : HandlerM Tally StepOutcome := do
  match ← steps workflow none routine with
  | .decided outcome => return outcome
  | .goOn _ => return .done

def workflow (workflowType startStep : String) (initialState : Json)
    (routines : List (String × Routine)) : Except Error (Workflow Tally) :=
  Workflow.build workflowType startStep initialState
    (routines.map fun (step, routine) => (step, handler workflowType routine))

end Routine

end DurableWorkflow
