import DurableWorkflow.Engine.Agenda
import DurableWorkflow.Engine.Basic
import DurableWorkflow.Engine.Locks
import DurableWorkflow.Workflow.Flight

namespace DurableWorkflow

inductive Work
  | call (call : Call)
  | write (runId : String) (run : Option Run)

def Work.runId : Work → String
  | .call made => made.runId
  | .write runId _ => runId

inductive WorkEnd
  | called (ending : CallEnd)
  | wrote (existed : Bool)

-- Whether a panic ends the task as well.
def WorkEnd.breaks : WorkEnd → Bool
  | .called .panicked | .called .unfinished => true
  | _ => false

inductive Stage (ω : Type)
  | idle
  | asking (work : Work)
  | pausing (work : Work) (flight : Flight ω) (wake : Nat)

structure Task (ω : Type) where
  id : TaskId
  stage : Stage ω
  rest : List Work
  ends : List WorkEnd

namespace Task

variable {ω : Type}

def create (id : TaskId) (works : List Work) : Task ω :=
  ⟨id, .idle, works, []⟩

def isDone (task : Task ω) : Bool :=
  match task.stage with
  | .idle => task.rest.isEmpty
  | _ => false

end Task

structure Worker (ω : Type) where
  sweep : Task ω
  nextTick : Nat
  stopping : Bool

namespace Worker

variable {ω : Type}

def id (worker : Worker ω) : TaskId :=
  worker.sweep.id

def isBroken (worker : Worker ω) : Bool :=
  match worker.sweep.ends with
  | ending :: _ => ending.breaks
  | [] => false

def isOver (worker : Worker ω) : Bool :=
  worker.sweep.isDone && (worker.stopping || worker.isBroken)

end Worker

-- An engine at work on its store: tasks do units of work one after another, each under the lock of
-- the run it addresses.
structure Service (ω : Type) where
  engine : Engine ω
  store : Store
  world : ω
  clock : Instant
  elapsed : Nat
  locks : Locks
  agenda : Agenda
  tasks : List (Task ω)
  workers : List (Worker ω)
  made : Nat

namespace Service

variable {ω : Type}

def create (engine : Engine ω) (clock : Instant) (world : ω) : Service ω where
  engine
  store := .empty
  world
  clock
  elapsed := 0
  locks := .empty
  agenda := .empty
  tasks := []
  workers := []
  made := 0

def now (service : Service ω) : Timestamp :=
  service.clock.timestamp

inductive Reached (ω : Type)
  | ended (ending : WorkEnd)
  | paused (flight : Flight ω) (wake : Nat)

def arrive (service : Service ω) (runId : String) : Flight.Leg ω × ω → Reached ω × Service ω
  | (.landed ending run, world) =>
    let (ending, store) := Engine.conclude service.store runId ending run
    (.ended (.called ending), { service with store, world })
  | (.paused millis flight, world) =>
    (.paused flight (service.elapsed + millis), { service with world })

def begin (service : Service ω) : Work → Reached ω × Service ω
  | .write runId run =>
    let store := match run with
      | some run => service.store.insert runId run
      | none => service.store
    (.ended (.wrote (service.store.contains runId)), { service with store })
  | .call call =>
    match service.engine.prepare service.now service.store call with
    | .error error => (.ended (.called (.refused error)), service)
    | .ok .nothing => (.ended (.called .settled), service)
    | .ok (.keep run) =>
      (.ended (.called .settled), { service with store := service.store.insert call.runId run })
    | .ok (.drive workflow run) =>
      service.arrive call.runId
        (Flight.start workflow service.now service.engine.config.budget run service.world)

def release (service : Service ω) (runId : String) : Service ω :=
  let locks := service.locks.release runId
  match (locks.lock runId).owner with
  | some task => { service with locks, agenda := service.agenda.wake task }
  | none => { service with locks }

def pause (task : Task ω) (work : Work) (flight : Flight ω) (wake : Nat) (service : Service ω) :
    Task ω × Service ω :=
  ({ task with stage := .pausing work flight wake },
    { service with agenda := service.agenda.wakeAt wake task.id })

def refusal? (service : Service ω) : Work → Option Error
  | .call call => service.engine.refusal? call
  | .write _ _ => none

-- Takes up works one after another, until one has to wait.
def takeUp (id : TaskId) : List Work → List WorkEnd → Service ω → Task ω × Service ω
  | [], ends, service => (⟨id, .idle, [], ends⟩, service)
  | work :: rest, ends, service =>
    match service.refusal? work with
    | some error => takeUp id rest (.called (.refused error) :: ends) service
    | none =>
      let service := { service with locks := service.locks.ask work.runId id }
      let task : Task ω := ⟨id, .asking work, rest, ends⟩
      if service.locks.grants work.runId id then
        match service.begin work with
        | (.paused flight wake, service) => pause task work flight wake service
        | (.ended ending, service) =>
          let service := service.release work.runId
          if ending.breaks then (⟨id, .idle, [], ending :: ends⟩, service)
          else takeUp id rest (ending :: ends) service
      else (task, service)

def proceed (task : Task ω) (work : Work) : Reached ω × Service ω → Task ω × Service ω
  | (.paused flight wake, service) => pause task work flight wake service
  | (.ended ending, service) =>
    let service := service.release work.runId
    if ending.breaks then (⟨task.id, .idle, [], ending :: task.ends⟩, service)
    else takeUp task.id task.rest (ending :: task.ends) service

def canGoOn (service : Service ω) (task : Task ω) : Bool :=
  match task.stage with
  | .idle => true
  | .asking work => service.locks.grants work.runId task.id
  | .pausing _ _ wake => wake ≤ service.elapsed

def turn (service : Service ω) (task : Task ω) : Task ω × Service ω :=
  if service.canGoOn task then
    match task.stage with
    | .idle => takeUp task.id task.rest task.ends service
    | .asking work => proceed task work (service.begin work)
    | .pausing work flight _ =>
      proceed task work (service.arrive work.runId (flight.goOn service.now service.world))
  else (task, service)

end Service

end DurableWorkflow
