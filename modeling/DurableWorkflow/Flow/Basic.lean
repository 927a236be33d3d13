import DurableWorkflow.Json.Basic

namespace DurableWorkflow

structure EventValue where
  value : Json
  schema : Option Json
  deriving DecidableEq

inductive StepKind
  | begin
  | finish
  | task (params paramsSchema : Option Json)
  | decision
  | resumeAfter (duration : String)
  -- A wait for an event: `input` holds its filter, `output` the payload that is expected.
  | waitForEvent (input output : Option EventValue)
  deriving DecidableEq

namespace StepKind

def name : StepKind → String
  | .begin => "begin"
  | .finish => "end"
  | .task .. => "task"
  | .decision => "decision"
  | .resumeAfter _ => "resumeAfter"
  | .waitForEvent .. => "waitForEvent"

def isBegin : StepKind → Bool
  | .begin => true
  | _ => false

def isTask : StepKind → Bool
  | .task .. => true
  | _ => false

end StepKind

structure Step where
  id : String
  name : String
  kind : StepKind
  metadata : Option (List (String × Json))
  deriving DecidableEq

structure Connection where
  id : String
  source : String
  target : String
  condition : Option String
  deriving DecidableEq

-- A flow is a graph: typed steps joined by connections, some of which have a condition. A run of it
-- moves along the connections.
structure Flow where
  id : String
  name : String
  version : String
  globalStateSchema : Option Json
  state : Option Json
  steps : List Step
  connections : List Connection
  metadata : Option (List (String × Json))
  deriving DecidableEq

namespace Flow

def step? (flow : Flow) (id : String) : Option Step :=
  flow.steps.find? (·.id = id)

def beginSteps (flow : Flow) : List Step :=
  flow.steps.filter (·.kind.isBegin)

def beginStep? (flow : Flow) : Option Step :=
  match flow.beginSteps with
  | [step] => some step
  | _ => none

def outgoing (flow : Flow) (stepId : String) : List Connection :=
  flow.connections.filter (·.source = stepId)

def stepIds (flow : Flow) : List String :=
  flow.steps.map (·.id)

end Flow

end DurableWorkflow
