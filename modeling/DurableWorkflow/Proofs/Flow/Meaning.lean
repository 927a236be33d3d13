import DurableWorkflow.Engine.Basic
import DurableWorkflow.Workflow.OfFlow

namespace DurableWorkflow

inductive Wait
  | timer (deadline : Timestamp) (fired : Bool)
  | event (filter : Json) (delivered : Option Json)

namespace Wait

def isResolved : Wait → Bool
  | timer _ fired     => fired
  | event _ delivered => delivered.isSome

def resolve (now : Timestamp) (payload : Option Json) : Wait → Wait
  | timer deadline fired => .timer deadline (fired || decide (deadline ≤ now))
  | event filter _       => .event filter (some (payload.getD .null))

def entry (step : String) : Wait → ResumeEntry
  | timer deadline fired   => .timer (resumeId step step) deadline fired
  | event filter delivered => .event (resumeId step step) filter delivered

end Wait

inductive Move
  | advance (next : String)
  | stay (wait : Wait)
  | finish
  | fail (error : Error)

def Move.along : Option Connection → Move
  | some connection => .advance connection.target
  | none            => .finish

-- A flow read as a program of its own, without handlers or workflows: a walk goes from step to step
-- along the connections. `Flow.visit` says what happens at a step, `Flow.pass` how far a walk gets
-- before it has to wait, and `Flow.undertake` what the calls on a run are for a walk.
structure Walk where
  status   : RunStatus
  error    : Option String
  position : String
  state    : Json
  memo     : ActionMemo
  -- What the present visit waits for, from when it first asked for it.
  wait     : Option Wait
  auditLog : Option (List AuditEntry)

namespace Walk

def fail (error : Error) (walk : Walk) : Walk :=
  { walk with status := .failed, error := some error.message }

def cancel (walk : Walk) : Walk :=
  { walk with status := .cancelled, wait := walk.wait.filter Wait.isResolved }

def launch (walk : Walk) : Walk :=
  { walk with status := .running, error := none }

def adopt (result : Json) (walk : Walk) : Walk :=
  if result.isNull then walk else { walk with state := result }

def audit (now : Timestamp) (outcome : AuditOutcome) (walk : Walk) : Walk :=
  { walk with auditLog := walk.auditLog.map (· ++ [⟨walk.position, walk.position, now, outcome⟩]) }

def memoize (now : Timestamp) (result : Json) (walk : Walk) : Walk :=
  { walk with memo := walk.memo.record walk.position result }.audit now .success

def awaits (id : String) (walk : Walk) : Bool :=
  resumeId walk.position walk.position = id && walk.wait.any fun wait => !wait.isResolved

def resolve (now : Timestamp) (payload : Option Json) (walk : Walk) : Walk :=
  { walk with wait := walk.wait.map (Wait.resolve now payload) }

def conclude (walk : Walk) : Outcome Move → Option PassEnd × Walk
  | .returned (.advance next) => (none, { walk with position := next, wait := none })
  | .returned (.stay wait) =>
    (some (.suspended (wait.entry walk.position)),
      { walk with status := .suspended, wait := some wait })
  | .returned .finish => (some .finished, { walk with status := .finished, wait := none })
  | .returned (.fail error) => (some (.failed error), walk.fail error)
  | .panicked => (some .panicked, walk)

-- The run that stands for a walk.
def snapshot (flow : Flow) (runId : String) (walk : Walk) : Run where
  id           := some runId
  workflowType := flow.id
  status       := walk.status
  error        := walk.error
  currentStep  := walk.position
  state        := walk.state
  memo         := walk.memo
  pending      := walk.wait.toList.map (Wait.entry walk.position)
  auditLog     := walk.auditLog

end Walk

def Connection.holds (state : Json) (connection : Connection) : Outcome Bool :=
  match connection.condition with
  | none => .returned false
  | some source =>
    match Condition.parse source with
    | .returned (.ok condition) => condition.evaluate state
    | .returned (.error _)      => .returned false
    | .panicked                 => .panicked

namespace Flow

variable {ω : Type}

def onward (flow : Flow) (position : String) : Move :=
  .along (flow.connections.find? (·.source = position))

def firstHolding (state : Json) : List Connection → Outcome (Option Connection)
  | [] => .returned none
  | connection :: rest =>
    match connection.holds state with
    | .returned true  => .returned (some connection)
    | .returned false => firstHolding state rest
    | .panicked       => .panicked

-- Along the first connection whose condition holds, or else the first without one.
def choose (flow : Flow) (position : String) (state : Json) : Outcome Move :=
  let connections := flow.outgoing position
  (firstHolding state connections).map fun chosen =>
    .along (chosen <|> connections.find? (·.condition.isNone))

def absorb (payload state : Json) : Json :=
  match payload, state with
  | .object given, .object members =>
    .object (given.foldl (fun members (key, value) => Entries.insert key value members) members)
  | _, _ => state

def visitTask (flow : Flow) (task : StepTask ω) (params : Option Json) (now : Timestamp)
    (walk : Walk) (world : ω) : Outcome Move × Walk × ω :=
  match walk.memo.get? walk.position with
  | some result => (.returned (flow.onward walk.position), walk.adopt result, world)
  | none =>
    match task walk.state params world with
    | (.returned result, world) =>
      (.returned (flow.onward walk.position), (walk.memoize now result).adopt result, world)
    | (.failed message, world) =>
      (.returned (.fail (.actionFailed walk.position message)), walk.audit now .failure, world)
    | (.panicked, world) => (.panicked, walk, world)

def visitDelay (flow : Flow) (millis : Nat) (now : Timestamp) (walk : Walk) : Move :=
  match walk.wait.getD (.timer (now.after millis) false) with
  | .timer deadline fired =>
    if fired ∨ deadline ≤ now then flow.onward walk.position else .stay (.timer deadline fired)
  | .event .. => .fail (.resumeIdConflict walk.position (resumeId walk.position walk.position))

def visitEvent (flow : Flow) (filter : Json) (walk : Walk) : Move × Walk :=
  match walk.wait.getD (.event filter none) with
  | .event _ (some payload) =>
    (flow.onward walk.position, { walk with state := absorb payload walk.state })
  | .event filter none => (.stay (.event filter none), walk)
  | .timer .. =>
    (.fail (.resumeIdConflict walk.position (resumeId walk.position walk.position)), walk)

def visitKind (flow : Flow) (tasks : Dict (StepTask ω)) (now : Timestamp) (kind : StepKind)
    (walk : Walk) (world : ω) : Outcome Move × Walk × ω :=
  match kind with
  | .begin  => (.returned (flow.onward walk.position), walk, world)
  | .finish => (.returned .finish, walk, world)
  | .task params _ =>
    match tasks.get? walk.position with
    | some task => flow.visitTask task params now walk world
    | none      => (.returned (.fail (.missingHandler walk.position)), walk, world)
  | .decision => (flow.choose walk.position walk.state, walk, world)
  | .resumeAfter duration =>
    match Duration.parse duration with
    | .ok millis   => (.returned (flow.visitDelay millis now walk), walk, world)
    | .error error => (.returned (.fail error), walk, world)
  | .waitForEvent input _ =>
    let (move, walk) := flow.visitEvent ((input.map (·.value)).getD .null) walk
    (.returned move, walk, world)

def visit (flow : Flow) (tasks : Dict (StepTask ω)) (now : Timestamp) (walk : Walk) (world : ω) :
    Outcome Move × Walk × ω :=
  match flow.step? walk.position with
  | some step => flow.visitKind tasks now step.kind walk world
  | none      => (.returned (.fail (.missingHandler walk.position)), walk, world)

def concluded : Outcome Move × Walk × ω → Option PassEnd × Walk × ω
  | (move, walk, world) => ((walk.conclude move).1, (walk.conclude move).2, world)

def round (flow : Flow) (tasks : Dict (StepTask ω)) (now : Timestamp) (walk : Walk) (world : ω) :
    Option PassEnd × Walk × ω :=
  concluded (flow.visit tasks now walk world)

def travel (flow : Flow) (tasks : Dict (StepTask ω)) (now : Timestamp) (budget : Budget) :
    Nat → Walk → ω → PassEnd × Walk × ω
  | 0, walk, world =>
    match budget with
    | .limited limit =>
      let error := .stepLimitExceeded limit walk.position
      (.failed error, walk.fail error, world)
    | .unlimited _ => (.unfinished, walk, world)
  | left + 1, walk, world =>
    match flow.round tasks now walk world with
    | (none, walk, world)        => flow.travel tasks now budget left walk world
    | (some ending, walk, world) => (ending, walk, world)

-- Takes a walk on until it has to wait, finishes or fails.
def pass (flow : Flow) (tasks : Dict (StepTask ω)) (runId : String) (now : Timestamp)
    (budget : Budget) (walk : Walk) (world : ω) : PassEnd × Walk × ω :=
  if walk.status.isClosed then (.failed (.runClosed runId walk.status), walk, world)
  else flow.travel tasks now budget budget.rounds walk.launch world

end Flow

inductive Errand
  | start (state : Json)
  | resume (id : String) (payload : Option Json)
  | retry
  | cancel

namespace Flow

variable {ω : Type}

def embark (start : Step) (config : Config) (state : Json) : Walk where
  status   := .running
  error    := none
  position := start.id
  state
  memo     := .empty
  wait     := none
  auditLog := if config.auditLog then some [] else none

-- Takes a walk on. It is not kept where it got to if the pass does not come to an end.
def drive (flow : Flow) (tasks : Dict (StepTask ω)) (config : Config) (runId : String)
    (now : Timestamp) (walk : Walk) (world : ω) : CallEnd × Option Walk × ω :=
  match flow.pass tasks runId now config.budget walk world with
  | (.finished, walk, world)        => (.passed (.finished runId walk.state), some walk, world)
  | (.suspended entry, walk, world) => (.passed (.needResume runId entry), some walk, world)
  | (.failed error, walk, world)    => (.passed (.error runId error), some walk, world)
  | (.panicked, _, world)           => (.panicked, none, world)
  | (.unfinished, _, world)         => (.unfinished, none, world)

-- What an errand comes to, given the walk if there is one: how it ends, and the walk that is kept
-- from now on if it is another one.
def undertake (flow : Flow) (tasks : Dict (StepTask ω)) (config : Config) (runId : String)
    (now : Timestamp) (world : ω) : Errand → Option Walk → CallEnd × Option Walk × ω
  | .start state, none =>
    match flow.beginStep? with
    | some start => flow.drive tasks config runId now (embark start config state) world
    | none       => (.refused (.unknownWorkflowType flow.id), none, world)
  | .start _, some _ => (.refused (.runAlreadyExists runId), none, world)
  | .resume id payload, some walk =>
    if !walk.awaits id then (.refused (.unknownResume runId id), none, world)
    else if walk.status.isClosed then (.refused (.runClosed runId walk.status), none, world)
    else flow.drive tasks config runId now (walk.resolve now payload) world
  | .retry, some walk =>
    if walk.status = .failed then flow.drive tasks config runId now walk world
    else (.refused (.runNotFailed runId), none, world)
  | .cancel, some walk =>
    match walk.status with
    | .cancelled => (.settled, none, world)
    | .finished  => (.refused (.runClosed runId .finished), none, world)
    | _          => (.settled, some walk.cancel, world)
  | .resume .., none | .retry, none | .cancel, none => (.refused (.unknownRun runId), none, world)

end Flow

end DurableWorkflow
