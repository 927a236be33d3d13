import DurableWorkflow.Json.Record
import DurableWorkflow.Run.Basic

namespace DurableWorkflow

open Json

def Timestamp.ofJson? (json : Json) : Option Timestamp :=
  json.asInt?.bind ofMillis?

def Timestamp.toJson (timestamp : Timestamp) : Json :=
  Json.int timestamp.millis

namespace RunStatus

def all : List RunStatus :=
  [.running, .suspended, .finished, .failed, .cancelled]

def ofJson? (json : Json) : Option RunStatus := do
  let word ← json.word?
  all.find? (·.name = word)

end RunStatus

namespace ResumeEntry

def timerFields : List String := ["resumeId", "resumeAfter", "fired"]

def eventFields : List String := ["resumeId", "filterCriteria", "resumedValue"]

def ofFields? (tag : String) (body : Json) : Option ResumeEntry :=
  if tag = "timer" then do
    let fields ← body.record? timerFields
    let id ← required? asString? fields "resumeId"
    let deadline ← required? Timestamp.ofJson? fields "resumeAfter"
    let fired ← defaulted? asBool? false fields "fired"
    pure (.timer id deadline fired)
  else if tag = "event" then do
    let fields ← body.record? eventFields
    let id ← required? asString? fields "resumeId"
    let filter ← content? fields "filterCriteria"
    pure (.event id filter (content? fields "resumedValue"))
  else none

def ofJson? : Json → Option ResumeEntry
  | .object members => do
    let tag ← required? asString? members "type"
    ofFields? tag (.object members)
  | .array (.string tag :: items) => ofFields? tag (.array items)
  | _ => none

def toJson : ResumeEntry → Json
  | .timer id deadline fired =>
    ofMembers (
      [("type", .string "timer"), ("resumeId", .string id), ("resumeAfter", deadline.toJson)] ++
      if fired then [("fired", .bool true)] else [])
  | .event id filter delivered =>
    ofMembers ([("type", .string "event"), ("resumeId", .string id), ("filterCriteria", filter)] ++
      optionalMember "resumedValue" delivered)

end ResumeEntry

namespace MemoEntry

def ofJson? (json : Json) : Option MemoEntry := do
  let fields ← json.record? ["executed", "result"]
  let executed ← required? asBool? fields "executed"
  pure ⟨executed, content? fields "result"⟩

def toJson (entry : MemoEntry) : Json :=
  ofMembers (("executed", .bool entry.executed) :: optionalMember "result" entry.result)

end MemoEntry

namespace ActionMemo

def ofJson? (json : Json) : Option ActionMemo := do
  let members ← json.asMembers?
  let entries ← members.mapM fun (key, entry) => (MemoEntry.ofJson? entry).map (key, ·)
  pure ⟨Dict.ofPairs entries⟩

def toJson (memo : ActionMemo) : Json :=
  .object (memo.entries.entries.map fun (key, entry) => (key, entry.toJson))

end ActionMemo

namespace AuditOutcome

def name : AuditOutcome → String
  | .success => "success"
  | .failure => "failure"

def ofJson? (json : Json) : Option AuditOutcome := do
  let word ← json.word?
  [success, failure].find? (·.name = word)

end AuditOutcome

namespace AuditEntry

def ofJson? (json : Json) : Option AuditEntry := do
  let fields ← json.record? ["step", "action", "timestamp", "outcome"]
  let step ← required? asString? fields "step"
  let action ← required? asString? fields "action"
  let time ← required? Timestamp.ofJson? fields "timestamp"
  let outcome ← required? AuditOutcome.ofJson? fields "outcome"
  pure { step, action, time, outcome }

def toJson (entry : AuditEntry) : Json :=
  ofMembers [("step", .string entry.step), ("action", .string entry.action),
    ("timestamp", entry.time.toJson), ("outcome", .string entry.outcome.name)]

end AuditEntry

namespace Run

def fieldNames : List String :=
  ["runId", "workflowType", "status", "error", "currentStep", "state", "actionMemo",
    "pendingResumeEntries", "auditLog"]

def ofJson? (json : Json) : Option Run := do
  let fields ← json.record? fieldNames
  let id ← optional? asString? fields "runId"
  let workflowType ← defaulted? asString? "" fields "workflowType"
  let status ← defaulted? RunStatus.ofJson? .running fields "status"
  let error ← optional? asString? fields "error"
  let currentStep ← required? asString? fields "currentStep"
  let state := (content? fields "state").getD .null
  let memo ← defaulted? ActionMemo.ofJson? .empty fields "actionMemo"
  let pending ← defaulted? (listOf? ResumeEntry.ofJson?) [] fields "pendingResumeEntries"
  let auditLog ← optional? (listOf? AuditEntry.ofJson?) fields "auditLog"
  pure { id, workflowType, status, error, currentStep, state, memo, pending, auditLog }

def toJson (run : Run) : Json :=
  ofMembers (
    optionalMember "runId" (run.id.map .string) ++
    [("workflowType", .string run.workflowType), ("status", .string run.status.name)] ++
    optionalMember "error" (run.error.map .string) ++
    [("currentStep", .string run.currentStep), ("state", run.state),
      ("actionMemo", run.memo.toJson),
      ("pendingResumeEntries", .array (run.pending.map ResumeEntry.toJson))] ++
    optionalMember "auditLog" (run.auditLog.map fun log => .array (log.map AuditEntry.toJson)))

end Run

end DurableWorkflow
