import DurableWorkflow.Engine.Store
import DurableWorkflow.Workflow.Pass

namespace DurableWorkflow

structure Config where
  pollMillis : Nat
  shutdownMillis : Nat
  maxSteps : Option Nat
  auditLog : Bool
  workerId : Option String
  -- For how many handlers a pass without limit is followed.
  fuel : Nat

namespace Config

def standard : Config where
  pollMillis := 1000
  shutdownMillis := 30000
  maxSteps := some 10000
  auditLog := true
  workerId := none
  fuel := 1000000

def budget (config : Config) : Budget :=
  match config.maxSteps with
  | some limit => .limited limit
  | none => .unlimited config.fuel

end Config

inductive RunResult
  | finished (runId : String) (state : Json)
  | error (runId : String) (error : Error)
  | needResume (runId : String) (entry : ResumeEntry)

namespace RunResult

def runId : RunResult → String
  | .finished runId _ | .error runId _ | .needResume runId _ => runId

def isFinished : RunResult → Bool
  | .finished .. => true
  | _ => false

def isError : RunResult → Bool
  | .error .. => true
  | _ => false

def entry? : RunResult → Option ResumeEntry
  | .needResume _ entry => some entry
  | _ => none

end RunResult

inductive Call
  | run (runId : String) (initial : Run)
  | resume (runId resumeId : String) (payload : Option Json)
  | retry (runId : String)
  | cancel (runId : String)

namespace Call

def runId : Call → String
  | .run runId _ | .resume runId _ _ | .retry runId | .cancel runId => runId

end Call

inductive Prepared (ω : Type)
  | drive (workflow : Workflow ω) (run : Run)
  | keep (run : Run)
  | nothing

inductive CallEnd
  | passed (result : RunResult)
  | settled
  | refused (error : Error)
  | panicked
  | unfinished

inductive SweepEnd
  | fired (count : Nat)
  | panicked
  | unfinished

structure Engine (ω : Type) where
  workflows : Dict (Workflow ω)
  config : Config

namespace Engine

variable {ω : Type}

def build (config : Config) (workflows : List (Workflow ω)) : Except Error (Engine ω) :=
  go .empty workflows
where
  go (registered : Dict (Workflow ω)) : List (Workflow ω) → Except Error (Engine ω)
    | [] => .ok ⟨registered, config⟩
    | workflow :: rest =>
      if registered.contains workflow.workflowType then
        .error (.duplicateWorkflowType workflow.workflowType)
      else go (registered.insert workflow.workflowType workflow) rest

def workflow (engine : Engine ω) (workflowType : String) : Except Error (Workflow ω) :=
  match engine.workflows.get? workflowType with
  | some workflow => .ok workflow
  | none => .error (.unknownWorkflowType workflowType)

def instantiate (engine : Engine ω) (workflowType : String) : Except Error Run :=
  (engine.workflow workflowType).map Workflow.instantiate

def stored (store : Store) (runId : String) : Except Error Run :=
  match store.get? runId with
  | some run => .ok run
  | none => .error (.unknownRun runId)

-- Why a call is refused before it asks for the lock of its run: only a run of a registered workflow
-- can be started.
def refusal? (engine : Engine ω) : Call → Option Error
  | .run _ run =>
    match engine.workflow run.workflowType with
    | .error error => some error
    | .ok _ => none
  | .resume .. | .retry _ | .cancel _ => none

def prepare (engine : Engine ω) (now : Timestamp) (store : Store) : Call → Except Error (Prepared ω)
  | .run runId run => do
    let workflow ← engine.workflow run.workflowType
    if store.contains runId then throw (.runAlreadyExists runId)
    return .drive workflow ({ run with id := some runId }.keepAuditLog engine.config.auditLog)
  | .resume runId resumeId payload => do
    let run ← stored store runId
    let workflow ← engine.workflow run.workflowType
    let (resolved, run) := run.resolve now resumeId payload
    let _ ← resolved
    if run.status.isClosed then throw (.runClosed runId run.status)
    return .drive workflow run
  | .retry runId => do
    let run ← stored store runId
    if run.status ≠ .failed then throw (.runNotFailed runId)
    let workflow ← engine.workflow run.workflowType
    return .drive workflow run
  | .cancel runId => do
    let run ← stored store runId
    match run.status with
    | .cancelled => return .nothing
    | .finished => throw (.runClosed runId run.status)
    | _ => return .keep run.cancel

def conclude (store : Store) (runId : String) (ending : PassEnd) (run : Run) : CallEnd × Store :=
  match ending with
  | .finished => (.passed (.finished run.name run.state), store.insert runId run)
  | .suspended entry => (.passed (.needResume run.name entry), store.insert runId run)
  | .failed error => (.passed (.error run.name error), store.insert runId run)
  | .panicked => (.panicked, store)
  | .unfinished => (.unfinished, store)

-- A call reads the stored run, decides whether it may proceed, drives the run, and stores it again.
-- A call that is refused or panics stores nothing.
def perform (engine : Engine ω) (now : Timestamp) (call : Call) (store : Store) (world : ω) :
    CallEnd × Store × ω :=
  match engine.prepare now store call with
  | .error error => (.refused error, store, world)
  | .ok .nothing => (.settled, store, world)
  | .ok (.keep run) => (.settled, store.insert call.runId run, world)
  | .ok (.drive workflow run) =>
    let (ending, run, world) := workflow.execute now engine.config.budget run world
    let (ending, store) := conclude store call.runId ending run
    (ending, store, world)

-- Resumes timers one after another. A timer whose run refuses is skipped.
def fire (engine : Engine ω) (now : Timestamp) : List DueTimer → (count : Nat) → Store → ω →
    SweepEnd × Store × ω
  | [], count, store, world => (.fired count, store, world)
  | timer :: rest, count, store, world =>
    match engine.perform now (.resume timer.runId timer.resumeId none) store world with
    | (.passed _, store, world) => engine.fire now rest (count + 1) store world
    | (.settled, store, world) | (.refused _, store, world) =>
      engine.fire now rest count store world
    | (.panicked, store, world) => (.panicked, store, world)
    | (.unfinished, store, world) => (.unfinished, store, world)

def fireDueTimers (engine : Engine ω) (now : Timestamp) (store : Store) (world : ω) :
    SweepEnd × Store × ω :=
  engine.fire now (store.listDue now) 0 store world

end Engine

end DurableWorkflow
