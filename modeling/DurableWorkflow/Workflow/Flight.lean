import DurableWorkflow.Workflow.Pass

namespace DurableWorkflow

namespace Script

variable {ω α : Type}

inductive Stretch (ω α : Type)
  | ended (result : Outcome α)
  | paused (millis : Nat) (rest : Script ω α)

-- Follows a script up to its first pause; a pause of no length is none.
def follow (now : Timestamp) : Script ω α → Run → ω → Stretch ω α × Run × ω
  | .pure value, run, world => (.ended (.returned value), run, world)
  | .panic, run, world => (.ended .panicked, run, world)
  | .call (.pause 0) next, run, world => (next ()).follow now run world
  | .call (.pause millis) next, run, world => (.paused millis (next ()), run, world)
  | .call request next, run, world =>
    match request.answer now run world with
    | (.returned reply, run, world) => (next reply).follow now run world
    | (.panicked, run, world) => (.ended .panicked, run, world)

end Script

-- A flight is a pass that stands at a pause of its handler; `Flight.goOn` takes it to the next
-- pause or to the end of the pass.
structure Flight (ω : Type) where
  workflow : Workflow ω
  budget : Budget
  left : Nat
  script : Script ω (Except Error StepOutcome)
  run : Run

namespace Flight

variable {ω : Type}

inductive Leg (ω : Type)
  | landed (ending : PassEnd) (run : Run)
  | paused (millis : Nat) (flight : Flight ω)

def finishRound (now : Timestamp) (next : Run → ω → Leg ω × ω) (flight : Flight ω) (world : ω) :
    Leg ω × ω :=
  match flight.script.follow now flight.run world with
  | (.paused millis script, run, world) => (.paused millis { flight with script, run }, world)
  | (.ended result, run, world) =>
    let (progress, run) := run.concludeStep flight.run.currentStep result
    match run.concludeRound progress with
    | (none, run) => next run world
    | (some ending, run) => (.landed ending run, world)

def rounds (workflow : Workflow ω) (now : Timestamp) (budget : Budget) :
    Nat → Run → ω → Leg ω × ω
  | 0, run, world =>
    let (ending, run) := budget.exhausted run
    (.landed ending run, world)
  | left + 1, run, world =>
    match workflow.enter run with
    | .error error => (.landed (.failed error) (run.fail error), world)
    | .ok handler =>
      finishRound now (rounds workflow now budget left)
        { workflow, budget, left, script := handler.run, run } world

def start (workflow : Workflow ω) (now : Timestamp) (budget : Budget) (run : Run) (world : ω) :
    Leg ω × ω :=
  if run.status.isClosed then (.landed (.failed run.closedError) run, world)
  else rounds workflow now budget budget.rounds run.launch world

def goOn (now : Timestamp) (flight : Flight ω) (world : ω) : Leg ω × ω :=
  finishRound now (rounds flight.workflow now flight.budget flight.left) flight world

end Flight

end DurableWorkflow
