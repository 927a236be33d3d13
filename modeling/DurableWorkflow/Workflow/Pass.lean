import DurableWorkflow.Workflow.Basic

namespace DurableWorkflow

-- How many handlers a pass may call. Without a limit a pass is followed for `fuel` rounds, and is
-- left `unfinished` if that is not enough to see its end.
inductive Budget
  | limited (handlers : Nat)
  | unlimited (fuel : Nat)

def Budget.rounds : Budget → Nat
  | limited handlers => handlers
  | unlimited fuel => fuel

inductive PassEnd
  | finished
  | suspended (entry : ResumeEntry)
  | failed (error : Error)
  | panicked
  | unfinished
  deriving DecidableEq

def Budget.exhausted (budget : Budget) (run : Run) : PassEnd × Run :=
  match budget with
  | .limited handlers =>
    let error := Error.stepLimitExceeded handlers run.currentStep
    (.failed error, run.fail error)
  | .unlimited _ => (.unfinished, run)

def Run.launch (run : Run) : Run :=
  { run with status := .running, error := none }

-- What the end of a handler makes of its run; `step` is the step it was called for.
def Run.concludeStep (run : Run) (step : String) :
    Outcome (Except Error StepOutcome) → Outcome (Except Error Progress) × Run
  | .returned (.ok outcome) =>
    let (progress, run) := run.settle step outcome
    (.returned (.ok progress), run)
  | .returned (.error error) => (.returned (.error error), run)
  | .panicked => (.panicked, run)

def Run.concludeRound (run : Run) : Outcome (Except Error Progress) → Option PassEnd × Run
  | .returned (.ok (.advanced _)) => (none, run)
  | .returned (.ok (.suspended entry)) => (some (.suspended entry), run)
  | .returned (.ok .finished) => (some .finished, run)
  | .returned (.error error) => (some (.failed error), run.fail error)
  | .panicked => (some .panicked, run)

namespace Workflow

variable {ω : Type}

def enter (workflow : Workflow ω) (run : Run) : Except Error (Handler ω) :=
  if run.status.isClosed then .error run.closedError
  else
    match workflow.handler? run.currentStep with
    | some handler => .ok handler
    | none => .error (.missingHandler run.currentStep)

def stepOnce (workflow : Workflow ω) (now : Timestamp) (run : Run) (world : ω) :
    Outcome (Except Error Progress) × Run × ω :=
  match workflow.enter run with
  | .error error => (.returned (.error error), run, world)
  | .ok handler =>
    let (result, after, world) := Script.run now handler.run run world
    let (progress, after) := after.concludeStep run.currentStep result
    (progress, after, world)

-- A pass drives a run from its current step until it suspends, finishes or fails. Each round calls
-- the handler of the current step once.
def rounds (workflow : Workflow ω) (now : Timestamp) (budget : Budget) :
    Nat → Run → ω → PassEnd × Run × ω
  | 0, run, world =>
    let (ending, run) := budget.exhausted run
    (ending, run, world)
  | left + 1, run, world =>
    let (progress, run, world) := workflow.stepOnce now run world
    match run.concludeRound progress with
    | (none, run) => workflow.rounds now budget left run world
    | (some ending, run) => (ending, run, world)

-- Drives a run. A closed run stays as it is; a run whose handler fails stays at the failing step
-- with what it recorded so far.
def execute (workflow : Workflow ω) (now : Timestamp) (budget : Budget) (run : Run) (world : ω) :
    PassEnd × Run × ω :=
  if run.status.isClosed then (.failed run.closedError, run, world)
  else workflow.rounds now budget budget.rounds run.launch world

end Workflow

end DurableWorkflow
