import DurableWorkflow.Condition.Basic
import DurableWorkflow.Duration
import DurableWorkflow.Flow.Basic

namespace DurableWorkflow

inductive FlowErrorCode
  | connection
  | beginStep
  | duplicateStep
  | duration
  | condition
  | globalStateValidation
  | stepParamsValidation
  | stepEventInputValidation
  | stepEventOutputValidation
  deriving DecidableEq

namespace FlowErrorCode

def name : FlowErrorCode → String
  | connection => "ConnectionError"
  | beginStep => "BeginStepError"
  | duplicateStep => "DuplicateStepError"
  | duration => "DurationError"
  | condition => "ConditionError"
  | globalStateValidation => "GlobalStateValidationError"
  | stepParamsValidation => "StepParamsValidationError"
  | stepEventInputValidation => "StepEventInputValidationError"
  | stepEventOutputValidation => "StepEventOutputValidationError"

def word : FlowErrorCode → String
  | connection => "CONNECTION_ERROR"
  | beginStep => "BEGIN_STEP_ERROR"
  | duplicateStep => "DUPLICATE_STEP_ERROR"
  | duration => "DURATION_ERROR"
  | condition => "CONDITION_ERROR"
  | globalStateValidation => "GLOBAL_STATE_VALIDATION_ERROR"
  | stepParamsValidation => "STEP_PARAMS_VALIDATION_ERROR"
  | stepEventInputValidation => "STEP_EVENT_INPUT_VALIDATION_ERROR"
  | stepEventOutputValidation => "STEP_EVENT_OUTPUT_VALIDATION_ERROR"

end FlowErrorCode

structure FlowError where
  code : FlowErrorCode
  message : String
  deriving DecidableEq

namespace FlowError

def text (error : FlowError) : String :=
  error.code.name ++ ": " ++ error.message

end FlowError

abbrev SchemaValidator := (schema value : Json) → Except (List String) Unit

-- The validator that only asks for the members listed under `required`.
def requiredMembers : SchemaValidator := fun schema value =>
  let required := ((schema.field "required").asArray?.getD []).filterMap Json.asString?
  match required.filter fun key => (value.member? key).isNone with
  | [] => .ok ()
  | missing => .error (missing.map ("missing " ++ ·))

namespace Flow

def repeatedIds : (seen : List String) → List String → List String
  | _, [] => []
  | seen, id :: rest =>
    if id ∈ seen then id :: repeatedIds seen rest else repeatedIds (id :: seen) rest

def duplicateErrors (flow : Flow) : List FlowError :=
  (repeatedIds [] flow.stepIds).map fun id =>
    ⟨.duplicateStep, "Step id '" ++ id ++ "' is used more than once."⟩

def beginErrors (flow : Flow) : List FlowError :=
  let count := flow.beginSteps.length
  if count = 1 then []
  else [⟨.beginStep, "Flow must have exactly one begin step, found " ++ toString count ++ "."⟩]

def connectionMessage (connection : Connection) (problem : String) : String :=
  "Connection error on id=" ++ connection.id ++ ": " ++ problem

def endErrors (flow : Flow) (connection : Connection) (role id : String) : List FlowError :=
  if id ∈ flow.stepIds then []
  else
    let missing := role ++ " step with ID '" ++ id ++ "' not found."
    [⟨.connection, connectionMessage connection missing⟩]

def conditionErrors (connection : Connection) : Outcome (List FlowError) :=
  match connection.condition with
  | none => .returned []
  | some source =>
    (Condition.parse source).map fun
      | .ok _ => []
      | .error error => [⟨.condition, connectionMessage connection error.message⟩]

def connectionErrors (flow : Flow) (connection : Connection) : Outcome (List FlowError) :=
  (conditionErrors connection).map fun errors =>
    endErrors flow connection "Source" connection.source ++
      endErrors flow connection "Target" connection.target ++ errors

def durationErrors (step : Step) : List FlowError :=
  match step.kind with
  | .resumeAfter duration =>
    match Duration.parse duration with
    | .ok _ => []
    | .error error => [⟨.duration, "Step '" ++ step.id ++ "': " ++ error.message⟩]
  | _ => []

def allConnectionErrors (flow : Flow) : List Connection → Outcome (List FlowError)
  | [] => .returned []
  | connection :: rest => do
    let errors ← connectionErrors flow connection
    let others ← allConnectionErrors flow rest
    return errors ++ others

-- The structural problems of a flow: repeated step ids, not exactly one begin step, connections to
-- steps that are not there, conditions and durations that cannot be read.
def validate (flow : Flow) : Outcome (List FlowError) :=
  (allConnectionErrors flow flow.connections).map fun errors =>
    flow.duplicateErrors ++ flow.beginErrors ++ errors ++ flow.steps.flatMap durationErrors

def schemaErrors (validator : SchemaValidator) (code : FlowErrorCode) (place : String) :
    (schema value : Option Json) → List FlowError
  | some schema, some value =>
    match validator schema value with
    | .ok _ => []
    | .error reasons => [⟨code, place ++ " validation error: " ++ "; ".intercalate reasons⟩]
  | _, _ => []

def eventErrors (validator : SchemaValidator) (code : FlowErrorCode) (place : String)
    (event : Option EventValue) : List FlowError :=
  schemaErrors validator code place (event.bind (·.schema)) (event.map (·.value))

def stepSchemaErrors (validator : SchemaValidator) (step : Step) : List FlowError :=
  let place := "Step '" ++ step.id ++ "' "
  match step.kind with
  | .task params schema =>
    schemaErrors validator .stepParamsValidation (place ++ "parameters") schema params
  | .waitForEvent input output =>
    eventErrors validator .stepEventInputValidation (place ++ "eventInput") input ++
      eventErrors validator .stepEventOutputValidation (place ++ "eventOutput") output
  | _ => []

-- The structural problems, then those of the initial state, and of each step's values.
def validateWith (flow : Flow) (validator : SchemaValidator) : Outcome (List FlowError) :=
  flow.validate.map fun errors =>
    let stateErrors :=
      schemaErrors validator .globalStateValidation "Global state" flow.globalStateSchema flow.state
    errors ++ stateErrors ++ flow.steps.flatMap (stepSchemaErrors validator)

end Flow

end DurableWorkflow
