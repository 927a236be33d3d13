import DurableWorkflow.Error
import DurableWorkflow.Resume
import DurableWorkflow.Run.Memo

namespace DurableWorkflow

inductive AuditOutcome
  | success
  | failure
  deriving DecidableEq

structure AuditEntry where
  step : String
  action : String
  time : Timestamp
  outcome : AuditOutcome
  deriving DecidableEq

-- Everything that is kept of one workflow run: where it is positioned, its state, which actions
-- already ran and what it is waiting on. It is what the store holds and what handlers work on.
structure Run where
  id : Option String
  workflowType : String
  status : RunStatus
  error : Option String
  currentStep : String
  state : Json
  memo : ActionMemo
  pending : List ResumeEntry
  auditLog : Option (List AuditEntry)
  deriving DecidableEq

namespace Run

def create (workflowType startStep : String) : Run where
  id := none
  workflowType
  status := .running
  error := none
  currentStep := startStep
  state := .null
  memo := .empty
  pending := []
  auditLog := some []

instance : Inhabited Run := ⟨create "" ""⟩

def name (run : Run) : String :=
  run.id.getD ""

def unresolved (run : Run) : List ResumeEntry :=
  run.pending.filter fun entry => !entry.isResolved

def earliest (first : Option Timestamp) (second : Timestamp) : Option Timestamp :=
  match first with
  | none => some second
  | some time => if second ≤ time then some second else some time

def nextTimerDue (run : Run) : Option Timestamp :=
  if run.status = .suspended then
    (run.unresolved.filterMap ResumeEntry.deadline?).foldl earliest none
  else none

def dueTimers (now : Timestamp) (run : Run) : List String :=
  if run.status = .suspended then (run.pending.filter (ResumeEntry.isDue now)).map ResumeEntry.id
  else []

-- Switches the audit log on or off; switching it off drops its entries.
def keepAuditLog (enabled : Bool) (run : Run) : Run :=
  if enabled then { run with auditLog := some (run.auditLog.getD []) }
  else { run with auditLog := none }

end Run

end DurableWorkflow
