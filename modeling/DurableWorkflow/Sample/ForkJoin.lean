import DurableWorkflow.Data.Word
import DurableWorkflow.Tally
import DurableWorkflow.Workflow.Basic

namespace DurableWorkflow.ForkJoin

variable {ω : Type}

def workflowType : String := "fork-join"

def backoff : Nat := 100

def settled : Json → Bool
  | .object jobs => jobs.all fun (_, status) => status = .string "done" || status = .string "failed"
  | _ => false

-- Starts jobs and polls their status with a pause between two rounds until all of them are settled.
-- The step `poll` loops on itself, and each round has an action key of its own, so that a resumed
-- round reuses its check. Failed jobs are reported in the state.
def fork : HandlerM ω StepOutcome := do
  let _ ← HandlerM.action "start-jobs" (fun _ => true) fun world =>
    (.returned (Json.strings ["resize", "transcode"]), world)
  return .advance "poll"

def countAttempt (attempt : Nat) : HandlerM ω Unit :=
  if attempt = Word.maxUnsigned then HandlerM.panic
  else HandlerM.assign "attempts" (.nat (attempt + 1))

def poll (check : ω → ActionResult × ω) : HandlerM ω StepOutcome := do
  let attempt := ((← HandlerM.state).field "attempts").asNat64?.getD 0
  let report ← HandlerM.action ("check-" ++ toString attempt) (fun _ => true) check
  if settled report.value then
    HandlerM.assign "statuses" report.value
    return .advance "join"
  match ← HandlerM.waitMillis "backoff" backoff with
  | some timer => return .suspend timer
  | none =>
    countAttempt attempt
    return .advance "poll"

def failedJobs (report : Json) : List String :=
  ((report.asMembers?.getD []).filter fun (_, status) => status = .string "failed").map (·.1)

def join : HandlerM ω StepOutcome := do
  let report := (← HandlerM.state).field "statuses"
  HandlerM.assign "failedJobs" (.strings (failedJobs report))
  return .done

def workflow (check : ω → ActionResult × ω) : Except Error (Workflow ω) :=
  Workflow.build workflowType "fork" .empty [("fork", fork), ("poll", poll check), ("join", join)]

def nextRound (rounds : List Json) (tally : Tally) : ActionResult × Tally :=
  let (n, tally) := tally.next workflowType "checks"
  match rounds[n - 1]? with
  | some report => (.returned report, tally)
  | none => (.failed "no status available", tally)

def scripted (rounds : List Json) : Except Error (Workflow Tally) :=
  workflow (nextRound rounds)

end DurableWorkflow.ForkJoin
