import DurableWorkflow.Tally
import DurableWorkflow.Workflow.OfFlow

namespace DurableWorkflow.Onboarding

variable {ω : Type}

def workflowType : String := "user-onboarding"

def step (id name : String) (kind : StepKind) : Step where
  id
  name
  kind
  metadata := none

def connect (id source target : String) (condition : Option String) : Connection where
  id
  source
  target
  condition

def flow : Flow where
  id := workflowType
  name := "User Onboarding"
  version := "1.0.0"
  globalStateSchema := none
  state := some (Json.ofMembers [("profileIsComplete", .bool false)])
  steps :=
    [step "start-flow" "Start" .begin, step "check-profile" "Check Profile" .decision,
      step "send-reminder" "Send Reminder"
        (.task (some (Json.ofMembers [("channel", .string "email")])) none),
      step "end-flow" "End" .finish]
  connections :=
    [connect "c1" "start-flow" "check-profile" none,
      connect "c2" "check-profile" "end-flow" (some "state.profileIsComplete == true"),
      connect "c3" "check-profile" "send-reminder" (some "state.profileIsComplete == false"),
      connect "c4" "send-reminder" "end-flow" none]
  metadata := none

def sendReminder (remind : ω → ω) : StepTask ω := fun state params world =>
  let channel := (params.map (·.field "channel")).getD .null
  match state.assign? "reminderSent" (.bool true) with
  | some state => (.returned (state.put "reminderChannel" channel), remind world)
  | none => (.panicked, remind world)

def workflow (remind : ω → ω) : Outcome (Except Error (Workflow ω)) :=
  Workflow.ofFlow flow (.ofPairs [("send-reminder", sendReminder remind)])

def counted : Outcome (Except Error (Workflow Tally)) :=
  workflow (Tally.bump workflowType "reminders")

end DurableWorkflow.Onboarding
