import DurableWorkflow.Proofs.Handler.Yield
import DurableWorkflow.Proofs.Workflow.Round

namespace DurableWorkflow.Workflow

variable {ω : Type}

structure Yields (workflow : Workflow ω) (now : Timestamp) (budget : Budget) (left : Nat)
    (run : Run) (world : ω) (ending : PassEnd) (requests : List (Request ω)) (after : Run) :
    Prop where
  ends     : ∃ world', workflow.rounds now budget left run world = (ending, after, world')
  performs : Exchange.performed (workflow.roundsExchanges now left run world) = requests

variable {workflow : Workflow ω} {now : Timestamp} {budget : Budget} {left : Nat}
  {run after last : Run} {world world' : ω} {ending : PassEnd} {requests later : List (Request ω)}
  {handler : Handler ω} {outcome : StepOutcome} {next : String}
  (live : run.status.isClosed = false)
  (found : workflow.handler? run.currentStep = some handler)
include live found

theorem round_of_yields (visit : handler.Yields now run world outcome requests after world') :
    let conclusion := after.concludeVisit run.currentStep (.returned (.ok outcome))
    workflow.round now run world = (conclusion.1, conclusion.2, world') := by
  rw [round_of_handler live found, Handler.round, visit.returns]

namespace Yields

theorem advance (visit : handler.Yields now run world (.advance next) requests after world')
    (rest : workflow.Yields now budget left
      { after.leaveStep run.currentStep with currentStep := next } world' ending later last) :
    workflow.Yields now budget (left + 1) run world ending (requests ++ later) last where
  ends     := by
    rw [rounds_succ, round_of_yields live found visit]
    exact rest.ends
  performs := by
    rw [roundsExchanges_succ, stepExchanges_of_handler live found, round_of_yields live found visit,
      Exchange.performed_append, visit.performs]
    exact congrArg _ rest.performs

theorem close (visit : handler.Yields now run world outcome requests after world')
    (closes : after.concludeVisit run.currentStep (.returned (.ok outcome)) = (some ending, last)) :
    workflow.Yields now budget (left + 1) run world ending requests last where
  ends     := by
    rw [rounds_succ, round_of_yields live found visit, closes]
    exact ⟨world', rfl⟩
  performs := by
    rw [roundsExchanges_succ, stepExchanges_of_handler live found, round_of_yields live found visit,
      closes]
    exact (congrArg _ (List.append_nil _)).trans visit.performs

end Yields

end DurableWorkflow.Workflow
