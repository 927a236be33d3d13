import DurableWorkflow.Handler.Script

namespace DurableWorkflow

structure Workflow (ω : Type) where
  workflowType : String
  startStep : String
  initialState : Json
  handlers : Dict (Handler ω)

namespace Workflow

variable {ω : Type}

def build (workflowType startStep : String) (initialState : Json)
    (steps : List (String × Handler ω)) : Except Error (Workflow ω) :=
  let handlers := Dict.ofPairs steps
  if handlers.contains startStep then .ok { workflowType, startStep, initialState, handlers }
  else .error (.missingHandler startStep)

def handler? (workflow : Workflow ω) (step : String) : Option (Handler ω) :=
  workflow.handlers.get? step

def stepIds (workflow : Workflow ω) : List String :=
  workflow.handlers.keys

def instantiate (workflow : Workflow ω) : Run :=
  { Run.create workflow.workflowType workflow.startStep with state := workflow.initialState }

def describe (workflow : Workflow ω) : String :=
  "Workflow \x7b workflow_type: " ++ Text.quote workflow.workflowType ++ ", start_step: " ++
    Text.quote workflow.startStep ++ ", steps: " ++ Text.quoteList workflow.stepIds ++ " \x7d"

end Workflow

end DurableWorkflow
