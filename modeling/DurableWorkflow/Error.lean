import DurableWorkflow.Text.Quoted

namespace DurableWorkflow

inductive RunStatus
  | running
  | suspended
  | finished
  | failed
  | cancelled
  deriving DecidableEq

namespace RunStatus

instance : Inhabited RunStatus := ⟨.running⟩

def isClosed : RunStatus → Bool
  | .finished | .cancelled => true
  | _ => false

def name : RunStatus → String
  | .running => "running"
  | .suspended => "suspended"
  | .finished => "finished"
  | .failed => "failed"
  | .cancelled => "cancelled"

end RunStatus

inductive Error
  -- A document or a stored result does not have the required shape. What the reader of JSON says of
  -- it is not modelled, and left out of the message.
  | serialization
  | unknownWorkflowType (workflowType : String)
  | duplicateWorkflowType (workflowType : String)
  | unknownRun (runId : String)
  | unknownResume (runId resumeId : String)
  | runAlreadyExists (runId : String)
  | runClosed (runId : String) (status : RunStatus)
  | runNotFailed (runId : String)
  | missingHandler (step : String)
  | actionFailed (key message : String)
  | handler (step message : String)
  | resumeIdConflict (step resumeId : String)
  | stepLimitExceeded (limit : Nat) (step : String)
  -- The same holds of what the reader of conditions says.
  | invalidCondition (source : String)
  | invalidDuration (text : String)
  | invalidFlow (message : String)
  deriving DecidableEq

namespace Error

def message : Error → String
  | serialization => "serialization error"
  | unknownWorkflowType workflowType => "unknown workflow type: " ++ workflowType
  | duplicateWorkflowType workflowType => "duplicate workflow type registration: " ++ workflowType
  | unknownRun runId => "unknown run: " ++ runId
  | unknownResume runId resumeId => "run " ++ runId ++ " has no pending resume entry " ++ resumeId
  | runAlreadyExists runId => "run already exists: " ++ runId
  | runClosed runId status => "run " ++ runId ++ " is " ++ status.name
  | runNotFailed runId => "run " ++ runId ++ " has not failed"
  | missingHandler step => "no handler registered for step " ++ step
  | actionFailed key message => "action " ++ key ++ " failed: " ++ message
  | handler step message => "step " ++ step ++ " failed: " ++ message
  | resumeIdConflict step resumeId =>
    "resume id " ++ resumeId ++ " in step " ++ step ++
      " is already registered as a different kind of wait"
  | stepLimitExceeded limit step =>
    "step limit of " ++ toString limit ++ " exceeded at step " ++ step
  | invalidCondition source => "invalid condition " ++ Text.quote source
  | invalidDuration text => "invalid duration " ++ Text.quote text
  | invalidFlow message => "invalid flow: " ++ message

end Error

end DurableWorkflow
