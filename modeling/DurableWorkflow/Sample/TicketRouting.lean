import DurableWorkflow.Tally
import DurableWorkflow.Workflow.Basic

namespace DurableWorkflow.TicketRouting

variable {ω : Type}

def workflowType : String := "ticket-routing"

structure Desk (ω : Type) where
  openTicket : ω → Nat × ω
  notifyCustomer : ω → Nat × ω
  page : ω → Option Nat × ω

def isCount (json : Json) : Bool :=
  json.asNat64?.isSome

def openStep (desk : Desk ω) : HandlerM ω StepOutcome := do
  let ticket ← HandlerM.action "create-ticket" (fun json => json.asString?.isSome) fun world =>
    let (n, world) := desk.openTicket world
    (.returned (.string ("T-" ++ toString n)), world)
  HandlerM.assign "ticketId" ticket.value
  return .advance "route"

def route : HandlerM ω StepOutcome := do
  if (← HandlerM.state).field "priority" = .string "high" then return .advance "escalate"
  else return .advance "queue"

def escalate (desk : Desk ω) : HandlerM ω StepOutcome := do
  let _ ← HandlerM.action "notify-customer" isCount fun world =>
    let (n, world) := desk.notifyCustomer world
    (.returned (.nat n), world)
  let page ← HandlerM.action "page-oncall" isCount fun world =>
    match desk.page world with
    | (some n, world) => (.returned (.nat n), world)
    | (none, world) => (.failed "pager unavailable", world)
  HandlerM.assign "page" page.value
  return .done

def queue : HandlerM ω StepOutcome :=
  return .done

def workflow (desk : Desk ω) : Except Error (Workflow ω) :=
  Workflow.build workflowType "open" .empty
    [("open", openStep desk), ("route", route), ("escalate", escalate desk), ("queue", queue)]

def countingDesk (failures : Nat) : Desk Tally where
  openTicket := Tally.next workflowType "tickets"
  notifyCustomer := Tally.next workflowType "notices"
  page tally :=
    if tally.count workflowType "failures" < failures then
      (none, tally.bump workflowType "failures")
    else
      let (n, tally) := tally.next workflowType "pages"
      (some n, tally)

def counted (failures : Nat) : Except Error (Workflow Tally) :=
  workflow (countingDesk failures)

end DurableWorkflow.TicketRouting
