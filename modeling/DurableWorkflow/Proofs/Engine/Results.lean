import DurableWorkflow.Proofs.Engine.Work
import DurableWorkflow.Proofs.Workflow.Ending

namespace DurableWorkflow

namespace Workflow

variable {ω : Type} {workflow : Workflow ω} {now : Timestamp} {budget : Budget}
  {start last : Run} {world world' : ω} {ending : PassEnd} {result : RunResult}

-- The failures of a pass at a step: the run is stored as the handler of the step left it, or as it
-- came to the step if no handler was called for it.
inductive FailsAt (workflow : Workflow ω) (now : Timestamp) (budget : Budget) (called : Nat)
    (stood : Run) (world : ω) (error : Error) : Run → Prop
  | handler {handler : Handler ω} {left : Run} {world' : ω} (within : called < budget.rounds)
      (known : workflow.handler? stood.currentStep = some handler)
      (ran : Script.run now handler.run stood world = (.returned (.error error), left, world')) :
    FailsAt workflow now budget called stood world error (left.fail error)
  | missing (within : called < budget.rounds)
      (unknown : workflow.handler? stood.currentStep = none)
      (named : error = .missingHandler stood.currentStep) :
    FailsAt workflow now budget called stood world error (stood.fail error)
  | exhausted (limited : budget = .limited called)
      (named : error = .stepLimitExceeded called stood.currentStep) :
    FailsAt workflow now budget called stood world error (stood.fail error)

structure Reports (workflow : Workflow ω) (now : Timestamp) (budget : Budget) (start : Run)
    (world : ω) (last : Run) (result : RunResult) : Prop where
  runId     : result.runId = last.name
  finished  : (∃ runId state, result = .finished runId state) ↔ last.status = .finished
  suspended : (∃ runId entry, result = .needResume runId entry) ↔
    last.status = .suspended ∧ last.error = none
  failed    : (∃ runId error, result = .error runId error) ↔ last.status = .failed
  done      : ∀ runId state, result = .finished runId state →
    state = last.state ∧ last.error = none ∧
      ∀ entry ∈ last.pending, entry.belongsTo last.currentStep = false
  failure   : ∀ runId error, result = .error runId error →
    last.error = some error.message ∧
      ∃ called stood world₁, workflow.Stands now called start world stood world₁ ∧
        last.currentStep = stood.currentStep ∧
        workflow.FailsAt now budget called stood world₁ error last
  keeps     : workflow.Keeps now budget start world last

theorem reports_of_finished {last : Run} (status : last.status = .finished)
    (error : last.error = none)
    (left : ∀ entry ∈ last.pending, entry.belongsTo last.currentStep = false)
    (keeps : workflow.Keeps now budget start world last) :
    workflow.Reports now budget start world last (.finished last.name last.state) where
  runId     := rfl
  finished  := iff_of_true ⟨_, _, rfl⟩ status
  suspended := iff_of_false (by rintro ⟨_, _, ⟨⟩⟩) (by simp [status])
  failed    := iff_of_false (by rintro ⟨_, _, ⟨⟩⟩) (by simp [status])
  done      := by
    rintro _ _ ⟨⟩
    exact ⟨rfl, error, left⟩
  failure   := by rintro _ _ ⟨⟩
  keeps

theorem reports_of_suspended {last : Run} {entry : ResumeEntry} (status : last.status = .suspended)
    (error : last.error = none) (keeps : workflow.Keeps now budget start world last) :
    workflow.Reports now budget start world last (.needResume last.name entry) where
  runId     := rfl
  finished  := iff_of_false (by rintro ⟨_, _, ⟨⟩⟩) (by simp [status])
  suspended := iff_of_true ⟨_, _, rfl⟩ ⟨status, error⟩
  failed    := iff_of_false (by rintro ⟨_, _, ⟨⟩⟩) (by simp [status])
  done      := by rintro _ _ ⟨⟩
  failure   := by rintro _ _ ⟨⟩
  keeps

theorem reports_of_failed {last stood : Run} {error : Error} {called : Nat} {world₁ : ω}
    (status : last.status = .failed) (text : last.error = some error.message)
    (stands : workflow.Stands now called start world stood world₁)
    (position : last.currentStep = stood.currentStep)
    (fails : workflow.FailsAt now budget called stood world₁ error last)
    (keeps : workflow.Keeps now budget start world last) :
    workflow.Reports now budget start world last (.error last.name error) where
  runId     := rfl
  finished  := iff_of_false (by rintro ⟨_, _, ⟨⟩⟩) (by simp [status])
  suspended := iff_of_false (by rintro ⟨_, _, ⟨⟩⟩) (by simp [status])
  failed    := iff_of_true ⟨_, _, rfl⟩ status
  done      := by rintro _ _ ⟨⟩
  failure   := by
    rintro _ _ ⟨⟩
    exact ⟨text, called, stood, world₁, stands, position, fails⟩
  keeps

theorem reports_of_execute (live : start.status.isClosed = false)
    (h : workflow.execute now budget start world = (ending, last, world'))
    (passed : (Engine.stage last ending).1 = .passed result) :
    workflow.Reports now budget start world last result := by
  have keeps : workflow.Keeps now budget start world
      (workflow.execute now budget start world).2.1 := execute_keeps live world
  rw [h] at keeps
  cases execute_ending live h with
  | exhausted stands =>
    cases budget
    case unlimited => cases passed
    case limited limit =>
      cases passed
      exact reports_of_failed rfl rfl stands rfl (.exhausted rfl rfl) keeps
  | closed stands within closes =>
    cases closes with
    | missing unknown =>
      cases passed
      exact reports_of_failed rfl rfl stands rfl (.missing within unknown rfl) keeps
    | failed known ran =>
      have served := Script.served_of_run ran
      cases passed
      exact reports_of_failed rfl rfl stands served.currentStep (.handler within known ran) keeps
    | suspended known ran =>
      have served := Script.served_of_run ran
      cases passed
      exact reports_of_suspended rfl (served.error.trans stands.error) keeps
    | finished known ran =>
      have served := Script.served_of_run ran
      cases passed
      refine reports_of_finished rfl (served.error.trans stands.error) (fun entry hm => ?_) keeps
      have ⟨_, other⟩ := List.mem_filter.mp hm
      simpa [Run.leaveStep, served.currentStep] using other
    | panicked => cases passed

end Workflow

namespace Engine

variable {ω : Type} {engine : Engine ω} {now : Timestamp} {store store' : Store} {call : Call}
  {world world' : ω} {result : RunResult}

-- No closed run is driven, unless one is started that was closed beforehand.
theorem Grants.live {loaded : Option Run} {workflow : Workflow ω} {start : Run}
    (unclosed : ∀ runId initial, call = .run runId initial → initial.status.isClosed = false)
    (h : engine.Grants now loaded call (.drive workflow start)) :
    start.status.isClosed = false := by
  cases h with
  | @run runId initial =>
    rw [opened, Run.keepAuditLog]
    split <;> exact unclosed runId initial rfl
  | resume _ _ _ live => exact live
  | retry _ failed    => rw [failed]; rfl

-- What a call returns for a pass is what it stored, whichever call it is and however its pass
-- ended. The result is made of how the pass ended, whereas the stored run has a status, an error
-- and a position of its own.
theorem results_stored
    (made : engine.perform now call store world = (.passed result, store', world'))
    (unclosed : ∀ runId initial, call = .run runId initial → initial.status.isClosed = false) :
    ∃ workflow start last,
      engine.Grants now (store.get? call.runId) call (.drive workflow start) ∧
        store' = store.insert call.runId last ∧
        workflow.Reports now engine.config.budget start world last result := by
  obtain ⟨staged, work, rfl⟩ := perform_eq_iff.mp made
  generalize passed : CallEnd.passed result = ending at work
  cases work_eq_iff.mp work with
  | refused | settled | kept => cases passed
  | @driven workflow start last ended _ granted pass =>
    have reports := Workflow.reports_of_execute (granted.live unclosed) pass passed.symm
    refine ⟨workflow, start, last, granted, ?_, reports⟩
    cases ended <;> cases passed <;> rfl

namespace Removal

def pack : HandlerM Nat StepOutcome := do
  HandlerM.put "packed" (.bool true)
  match ← HandlerM.waitEvent "van" .null with
  | .event _ _ (some _) => return .advance "drive"
  | entry               => return .suspend entry

def drive : HandlerM Nat StepOutcome := do
  HandlerM.put "at" (.string "road")
  let _ ← HandlerM.waitMillis "rest" 0
  let _ ← HandlerM.action "fuel" (fun _ => true) fun tank =>
    (if tank = 0 then .failed "empty" else .returned .null, tank + 1)
  return .done

def removal : Workflow Nat :=
  ⟨"removal", "pack", .empty, .ofPairs [("pack", pack), ("drive", drive)]⟩

def movers : Engine Nat :=
  ⟨.ofPairs [("removal", removal)], .standard⟩

def begun : CallEnd × Store × Nat :=
  movers.perform default (.run "r" removal.instantiate) .empty 0

def resumed : CallEnd × Store × Nat :=
  movers.perform default (.resume "r" "pack:van" none) begun.2.1 begun.2.2

def retried : CallEnd × Store × Nat :=
  movers.perform default (.retry "r") resumed.2.1 resumed.2.2

theorem removal_reported :
    (∃ entry, begun.1 = .passed (.needResume "r" entry)) ∧
      resumed.1 = .passed (.error "r" (.actionFailed "fuel" "empty")) ∧
      (∃ state, retried.1 = .passed (.finished "r" state)) ∧
      ∃ workflow start last,
        movers.Grants default (begun.2.1.get? "r") (.resume "r" "pack:van" none)
          (.drive workflow start) ∧
        resumed.2.1 = begun.2.1.insert "r" last ∧
        workflow.Reports default movers.config.budget start begun.2.2 last
          (.error "r" (.actionFailed "fuel" "empty")) := by
  have failed : resumed.1 = .passed (.error "r" (.actionFailed "fuel" "empty")) := by rfl
  refine ⟨⟨_, rfl⟩, failed, ⟨_, rfl⟩, ?_⟩
  exact results_stored (Prod.ext failed rfl) (by rintro _ _ ⟨⟩)

end Removal

end Engine

end DurableWorkflow
