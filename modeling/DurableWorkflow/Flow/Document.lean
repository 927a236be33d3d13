import DurableWorkflow.Flow.Basic
import DurableWorkflow.Json.Raw
import DurableWorkflow.Json.Record

namespace DurableWorkflow

open Json

namespace EventValue

def ofJson? (schemaField : String) (json : Json) : Option EventValue := do
  let fields ← json.record? ["value", schemaField]
  let schema ← optional? some fields schemaField
  pure ⟨(content? fields "value").getD .null, schema⟩

def toJson (schemaField : String) (event : EventValue) : Json :=
  ofMembers (("value", event.value) :: optionalMember schemaField event.schema)

end EventValue

namespace StepKind

def inputSchemaField : String := "eventInputSchema"

def outputSchemaField : String := "eventOutputSchema"

def words : List String :=
  ["begin", "end", "task", "decision", "resumeAfter", "waitForEvent"]

def word? : Json → Option String
  | .string word => words.find? (· = word)
  | .number (.int place) => if 0 ≤ place then words[place.toNat]? else none
  | _ => none

def fieldsOf (word : String) : List String :=
  if word = "task" then ["params", "paramsSchema"]
  else if word = "resumeAfter" then ["duration"]
  else if word = "waitForEvent" then ["eventInput", "eventOutput"]
  else []

def ofMembers? (members : List (String × Json)) : Option StepKind := do
  let word ← required? word? members "type"
  if word = "begin" then pure .begin
  else if word = "end" then pure .finish
  else if word = "decision" then pure .decision
  else if word = "task" then
    let params ← optional? some members "params"
    let schema ← optional? some members "paramsSchema"
    pure (.task params schema)
  else if word = "resumeAfter" then
    let duration ← required? asString? members "duration"
    pure (.resumeAfter duration)
  else
    let input ← optional? (EventValue.ofJson? inputSchemaField) members "eventInput"
    let output ← optional? (EventValue.ofJson? outputSchemaField) members "eventOutput"
    pure (.waitForEvent input output)

def members (kind : StepKind) : List (String × Json) :=
  ("type", .string kind.name) ::
    match kind with
    | .begin | .finish | .decision => []
    | .task params schema => optionalMember "params" params ++ optionalMember "paramsSchema" schema
    | .resumeAfter duration => [("duration", .string duration)]
    | .waitForEvent input output =>
      optionalMember "eventInput" (input.map (EventValue.toJson inputSchemaField)) ++
        optionalMember "eventOutput" (output.map (EventValue.toJson outputSchemaField))

end StepKind

namespace Step

def ofJson? (json : Json) : Option Step := do
  let members ← json.asMembers?
  let id ← required? asString? members "id"
  let name ← required? asString? members "name"
  let kind ← StepKind.ofMembers? members
  let metadata ← optional? asMembers? members "metadata"
  pure { id, name, kind, metadata }

def toJson (step : Step) : Json :=
  ofMembers ([("id", .string step.id), ("name", .string step.name)] ++ step.kind.members ++
    optionalMember "metadata" (step.metadata.map .object))

end Step

namespace Connection

def fieldNames : List String := ["id", "sourceStepId", "targetStepId", "condition"]

def ofJson? (json : Json) : Option Connection := do
  let fields ← json.record? fieldNames
  let id ← required? asString? fields "id"
  let source ← required? asString? fields "sourceStepId"
  let target ← required? asString? fields "targetStepId"
  let condition ← optional? asString? fields "condition"
  pure { id, source, target, condition }

def toJson (connection : Connection) : Json :=
  ofMembers ([("id", .string connection.id), ("sourceStepId", .string connection.source),
    ("targetStepId", .string connection.target)] ++
    optionalMember "condition" (connection.condition.map .string))

end Connection

namespace Flow

def fieldNames : List String :=
  ["id", "name", "version", "globalStateSchema", "state", "steps", "connections", "metadata"]

def ofJson? (json : Json) : Option Flow := do
  let fields ← json.record? fieldNames
  let id ← required? asString? fields "id"
  let name ← required? asString? fields "name"
  let version ← required? asString? fields "version"
  let globalStateSchema ← optional? some fields "globalStateSchema"
  let state ← optional? some fields "state"
  let steps ← required? (listOf? Step.ofJson?) fields "steps"
  let connections ← required? (listOf? Connection.ofJson?) fields "connections"
  let metadata ← optional? asMembers? fields "metadata"
  pure { id, name, version, globalStateSchema, state, steps, connections, metadata }

def toJson (flow : Flow) : Json :=
  ofMembers (
    [("id", .string flow.id), ("name", .string flow.name), ("version", .string flow.version)] ++
    optionalMember "globalStateSchema" flow.globalStateSchema ++
    optionalMember "state" flow.state ++
    [("steps", .array (flow.steps.map Step.toJson)),
      ("connections", .array (flow.connections.map Connection.toJson))] ++
    optionalMember "metadata" (flow.metadata.map .object))

def distinctIn (names : List String) (members : List (Option String × Raw)) : Bool :=
  names.all fun name => (members.filter fun member => member.1 = some name).length ≤ 1

def select? (names : List String) (members : List (Option String × Raw)) :
    Option (List (String × Raw)) :=
  if distinctIn names members then
    let named := members.mapM fun ((key, member) : Option String × Raw) =>
      key.map fun key => (key, member)
    named.map fun fields => fields.filter fun field => field.1 ∈ names
  else none

-- The value of a record in a text: its fields, each read by its name.
def recordOf? (names : List String) (read : String → Raw → Option Json) :
    List (Option String × Raw) → Option Json := fun members => do
  let fields ← select? names members
  let fields ← fields.mapM fun (name, member) => (read name member).map (name, ·)
  pure (ofMembers fields)

def listOf? (item : (depth : Nat) → Raw → Option Json) : (depth : Nat) → Raw → Option Json
  | depth + 1, .array items => (items.mapM (item depth)).map .array
  | depth, raw => raw.toJson? depth

def connectionOf? : (depth : Nat) → Raw → Option Json
  | depth + 1, .object members =>
    recordOf? Connection.fieldNames (fun _ => Raw.toJson? depth) members
  | depth, raw => raw.toJson? depth

def kindWord? (members : List (Option String × Raw)) : Option String := do
  let (_, raw) ← members.find? fun member => member.1 = some "type"
  let json ← raw.toJson? 0
  StepKind.word? json

def distinctEvents (members : List (Option String × Raw)) : Bool :=
  members.all fun
    | (some "eventInput", .object fields) => distinctIn ["value", StepKind.inputSchemaField] fields
    | (some "eventOutput", .object fields) =>
      distinctIn ["value", StepKind.outputSchemaField] fields
    | _ => true

-- The value of a step in a text. All of it is read, but only fields that the step has must not be
-- repeated.
def stepOf? (depth : Nat) (raw : Raw) : Option Json :=
  match raw with
  | .object members =>
    let word := (kindWord? members).getD ""
    let names := ["id", "name", "type", "metadata"] ++ StepKind.fieldsOf word
    if distinctIn names members && (word ≠ "waitForEvent" || distinctEvents members) then
      raw.toJson? depth
    else none
  | raw => raw.toJson? depth

def fieldOf? (name : String) (raw : Raw) : Option Json :=
  let depth := maxDepth - 1
  if name = "steps" then listOf? stepOf? depth raw
  else if name = "connections" then listOf? connectionOf? depth raw
  else raw.toJson? depth

def documentOf? : Raw → Option Json
  | .object members => recordOf? fieldNames fieldOf? members
  | .array items =>
    if items.length ≤ fieldNames.length then
      recordOf? fieldNames fieldOf? ((fieldNames.map some).zip items)
    else none
  | raw => raw.toJson? maxDepth

-- A flow text is JSON in which no field of the flow is repeated; the contents of fields that a flow
-- does not have are skipped unread.
def parse? (text : String) : Option Flow := do
  let raw ← Raw.parse? text
  let document ← documentOf? raw
  ofJson? document

end Flow

end DurableWorkflow
