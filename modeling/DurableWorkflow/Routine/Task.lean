import DurableWorkflow.Tally
import DurableWorkflow.Workflow.OfFlow

namespace DurableWorkflow

inductive ScriptedTask
  | echo
  | null
  | answer (value : Json)
  | fail (message : String)
  | flaky (failures : Nat) (message : String) (later : ScriptedTask)
  | set (key : String) (value : Json)
  | params (key : String)
  | count (key : String)

namespace ScriptedTask

instance : Inhabited ScriptedTask := ⟨.echo⟩

def result (n : Nat) (state : Json) (params : Option Json) : ScriptedTask → ActionResult
  | .echo => .returned state
  | .null => .returned .null
  | .answer value => .returned value
  | .fail message => .failed message
  | .flaky failures message later =>
    if n ≤ failures then .failed message else later.result n state params
  | .set key value => .returned (state.put key value)
  | .params key => .returned (state.put key (params.getD (.string "absent")))
  | .count key => .returned (state.put key (.nat n))

def toTask (workflow stepId : String) (task : ScriptedTask) : StepTask Tally :=
  fun state params tally =>
    let (n, tally) := tally.next workflow stepId
    (task.result n state params, tally)

def table (flow : Flow) (tasks : List (String × ScriptedTask)) : Dict (StepTask Tally) :=
  .ofPairs (tasks.map fun (stepId, task) => (stepId, task.toTask flow.id stepId))

end ScriptedTask

end DurableWorkflow
