import DurableWorkflow.Tally
import DurableWorkflow.Workflow.Basic

namespace DurableWorkflow.TrialConversion

variable {ω : Type}

def workflowType : String := "trial-conversion"

def delays : List Nat := [300, 200, 100]

def activation : String := resumeId "nurture" "plan-activated"

def start : HandlerM ω StepOutcome :=
  return .advance "nurture"

-- Waits for the delay of one reminder after the other and sends each once. The result is the delay
-- that is not over yet, if there is one.
def sendReminders (remind : Nat → ω → ω) : Nat → List Nat → HandlerM ω (Option ResumeEntry)
  | _, [] => return none
  | i, delay :: rest => do
    match ← HandlerM.waitMillis ("delay-" ++ toString i) delay with
    | some timer => return some timer
    | none =>
      let _ ← HandlerM.action ("reminder-" ++ toString i) (fun _ => true) fun world =>
        (.returned (Json.ofMembers [("reminder", .nat i)]), remind i world)
      sendReminders remind (i + 1) rest

def filter : Json :=
  Json.ofMembers [("event", .string "plan.activated")]

def nurture (remind : Nat → ω → ω) : HandlerM ω StepOutcome := do
  match ← HandlerM.waitEvent "plan-activated" filter with
  | .event _ _ (some payload) =>
    let plan := payload.field "planType"
    HandlerM.assign "planType" plan
    return .advance (if plan = .string "paid" then "convert" else "expire")
  | waiting =>
    match ← sendReminders remind 0 delays with
    | some timer => return .suspend timer
    | none => return .suspend waiting

def conclude (converted : Bool) : HandlerM ω StepOutcome := do
  HandlerM.assign "converted" (.bool converted)
  return .done

def steps (remind : Nat → ω → ω) : List (String × Handler ω) :=
  [("start", start), ("nurture", nurture remind),
    ("convert", conclude true), ("expire", conclude false)]

def initialState : Json :=
  Json.ofMembers [("userId", .string "user-1")]

def workflow (remind : Nat → ω → ω) : Except Error (Workflow ω) :=
  Workflow.build workflowType "start" initialState (steps remind)

def counted : Except Error (Workflow Tally) :=
  workflow fun _ => Tally.bump workflowType "reminders"

end DurableWorkflow.TrialConversion
