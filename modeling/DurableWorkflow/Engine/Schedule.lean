import DurableWorkflow.Engine.Service

namespace DurableWorkflow.Service

variable {ω : Type}

def tolerance : Nat := 5

-- The tick after the one that was due at `tick`: a period later, or if that one was late, at the
-- next multiple of the period.
def tickAfter (service : Service ω) (tick : Nat) : Nat :=
  let period := service.engine.config.pollMillis
  if service.elapsed ≤ tick + tolerance then tick + period
  else service.elapsed + period - (service.elapsed - tick) % period

def dueWorks (service : Service ω) : List Work :=
  (service.store.listDue service.now).map fun timer =>
    .call (.resume timer.runId timer.resumeId none)

def sweep (service : Service ω) (worker : Worker ω) : Worker ω × Service ω :=
  let (sweep, after) := takeUp worker.id service.dueWorks [] service
  ({ worker with sweep, nextTick := service.tickAfter worker.nextTick }, after)

def workerTurn (service : Service ω) (worker : Worker ω) : Worker ω × Service ω :=
  if worker.isOver then (worker, service)
  else if worker.sweep.isDone then
    if worker.nextTick ≤ service.elapsed then service.sweep worker else (worker, service)
  else
    let (sweep, service) := service.turn worker.sweep
    ({ worker with sweep }, service)

-- Sends a worker on after its turn. Between two sweeps it leaves if it is over, goes on at once if
-- its next tick is late, and else waits for it.
def settle (worker : Worker ω) (service : Service ω) : Service ω :=
  if worker.isOver then
    { service with
      workers := service.workers.filter (·.id ≠ worker.id)
      agenda := service.agenda.silence worker.id }
  else
    let workers := service.workers.map fun other => if other.id = worker.id then worker else other
    let agenda :=
      if !worker.sweep.isDone then service.agenda
      else if worker.nextTick ≤ service.elapsed then service.agenda.wakeFirst worker.id
      else service.agenda.wakeAt worker.nextTick worker.id
    { service with workers, agenda }

def giveTurn (id : TaskId) (service : Service ω) : Service ω :=
  match service.workers.find? (·.id = id), service.tasks.find? (·.id = id) with
  | some worker, _ =>
    let (worker, service) := service.workerTurn worker
    service.settle worker
  | none, some task =>
    let (task, service) := service.turn task
    let tasks := service.tasks.map fun other => if other.id = id then task else other
    { service with tasks }
  | none, none => service

def forward (time : Nat) (service : Service ω) : Service ω :=
  { service with elapsed := max service.elapsed time, agenda := service.agenda.ring time }

-- Gives the others their turns, and lets time pass when none of them can go on, until the caller
-- has had enough at a moment when it is asked: when all turns are given, and when time has passed.
def giveTurns (enough : Service ω → Bool) : (fuel : Nat) → Service ω → Service ω
  | 0, service => service
  | fuel + 1, service =>
    match service.agenda.ready with
    | id :: ready =>
      let agenda := { service.agenda with ready }
      giveTurns enough fuel (giveTurn id { service with agenda })
    | [] =>
      if enough service then service
      else
        match service.agenda.next? with
        | none => service
        | some time =>
          let service := service.forward time
          if enough service then service else giveTurns enough fuel service

-- Whoever makes the calls (the caller) goes on until it has to wait. Then the others have their
-- turns, and when none of them can go on, time passes up to the next alarm. At that point the
-- caller goes first if it can go on. Timer workers that are told to stop finish their sweeps in the
-- background.
def waitFor (enough : Service ω → Bool) (fuel : Nat) (service : Service ω) : Service ω :=
  if enough service then service else service.giveTurns enough fuel

def caller : TaskId := 0

def fuelUntil (service : Service ω) (deadline : Nat) : Nat :=
  service.engine.config.fuel + 4 * (deadline - service.elapsed)

def waitUntil (deadline : Nat) (event : Service ω → Bool) (service : Service ω) : Service ω :=
  let fuel := service.fuelUntil deadline
  let service := { service with agenda := service.agenda.wakeAt deadline caller }
  let service := service.waitFor (fun service => event service || deadline ≤ service.elapsed) fuel
  { service with agenda := service.agenda.silence caller }

def sleep (millis : Nat) (service : Service ω) : Service ω :=
  service.waitUntil (service.elapsed + millis) fun _ => false

def followFor : (fuel : Nat) → Task ω → Service ω → Task ω × Service ω
  | 0, task, service => (task, service)
  | fuel + 1, task, service =>
    if task.isDone then (task, service)
    else
      let service := service.waitFor (·.canGoOn task) service.engine.config.fuel
      if service.canGoOn task then
        let (task, service) := service.turn task
        followFor fuel task service
      else (task, service)

def follow (service : Service ω) (works : List Work) : List WorkEnd × Service ω :=
  let (task, service) := followFor service.engine.config.fuel (Task.create caller works) service
  (task.ends.reverse, service)

def perform (service : Service ω) (call : Call) : CallEnd × Service ω :=
  if service.workers.isEmpty then
    let (ending, store, world) :=
      service.engine.perform service.now call service.store service.world
    (ending, { service with store, world })
  else
    match service.follow [.call call] with
    | (.called ending :: _, service) => (ending, service)
    | (_, service) => (.unfinished, service)

def callEnd (task : Task ω) : CallEnd :=
  match task.ends with
  | .called ending :: _ => ending
  | _ => .unfinished

def performAll (service : Service ω) (calls : List Call) : List CallEnd × Service ω :=
  let tasks := calls.zipIdx.map fun (call, i) => Task.create (service.made + i + 1) [.call call]
  let agenda := tasks.foldl (fun agenda task => agenda.wake task.id) service.agenda
  let service := { service with agenda, tasks, made := service.made + calls.length }
  let service := service.waitFor (·.tasks.all Task.isDone) service.engine.config.fuel
  (service.tasks.map callEnd, { service with tasks := [] })

def write (service : Service ω) (runId : String) (run : Option Run) : Bool × Service ω :=
  match service.follow [.write runId run] with
  | (.wrote existed :: _, service) => (existed, service)
  | (_, service) => (false, service)

def sweepEnd : (count : Nat) → List WorkEnd → SweepEnd
  | count, [] => .fired count
  | count, .called (.passed _) :: rest => sweepEnd (count + 1) rest
  | _, .called .panicked :: _ => .panicked
  | _, .called .unfinished :: _ => .unfinished
  | count, _ :: rest => sweepEnd count rest

def fireDueTimers (service : Service ω) : SweepEnd × Service ω :=
  if service.workers.isEmpty then
    let (ending, store, world) :=
      service.engine.fireDueTimers service.now service.store service.world
    (ending, { service with store, world })
  else
    let (ends, service) := service.follow service.dueWorks
    (sweepEnd 0 ends, service)

-- Takes on a timer worker, which ticks at its first turn. Without a period there are no ticks.
def hire (service : Service ω) : TaskId × Service ω :=
  let id := service.made + 1
  let worker : Worker ω :=
    ⟨Task.create id [], service.elapsed, decide (service.engine.config.pollMillis = 0)⟩
  (id, { service with
    workers := service.workers ++ [worker]
    agenda := service.agenda.wake id
    made := id })

def dismiss (id : TaskId) (service : Service ω) : Service ω :=
  let workers := service.workers.map fun worker =>
    if worker.id = id then { worker with stopping := true } else worker
  let idle := workers.any fun worker => worker.id = id && worker.sweep.isDone
  { service with workers, agenda := if idle then service.agenda.wake id else service.agenda }

def hasLeft (id : TaskId) (service : Service ω) : Bool :=
  service.workers.all fun worker => worker.id ≠ id

structure Interval where
  millis : Nat
  advance : Nat

def keepTime : List Interval → Service ω → Outcome Unit × Service ω
  | [], service => (.returned (), service)
  | interval :: rest, service =>
    let service := service.sleep interval.millis
    match service.clock.advance? interval.advance with
    | some clock => keepTime rest { service with clock }
    | none => (.panicked, service)

def runTimers (intervals : List Interval) (service : Service ω) : Outcome Unit × Service ω :=
  let (id, service) := service.hire
  match service.keepTime intervals with
  | (.returned (), service) =>
    let deadline := service.elapsed + service.engine.config.shutdownMillis
    (.returned (), (service.dismiss id).waitUntil deadline (hasLeft id))
  | (.panicked, service) => (.panicked, service.dismiss id)

end DurableWorkflow.Service
