import DurableWorkflow.Run.Operations

namespace DurableWorkflow

inductive Request (ω : Type)
  | look
  -- Perform the action of a key at most once; see `Run.performAction`.
  | action (key : String) (accepts : Json → Bool) (thunk : ω → ActionResult × ω)
  | waitMillis (key : String) (millis : Nat)
  | waitEvent (key : String) (filter : Json)
  | resolve (id : String) (payload : Option Json)
  | setState (state : Json)
  | putState (state : Json)
  | pause (millis : Nat)

def Request.Reply {ω : Type} : Request ω → Type
  | .look => Run
  | .action .. => Except Error ActionOutput
  | .waitMillis .. => Except Error (Option ResumeEntry)
  | .waitEvent .. => Except Error ResumeEntry
  | .resolve .. => Except Error Bool
  | .setState _ => Except Error Unit
  | .putState _ => Unit
  | .pause _ => Unit

def Request.answer {ω : Type} (now : Timestamp) (request : Request ω) (run : Run) (world : ω) :
    Outcome request.Reply × Run × ω :=
  match request with
  | .look => (.returned run, run, world)
  | .action key accepts thunk => run.performAction now key accepts thunk world
  | .waitMillis key millis =>
    let (reply, run) := run.waitMillis now key millis
    (.returned reply, run, world)
  | .waitEvent key filter =>
    let (reply, run) := run.waitEvent key filter
    (.returned reply, run, world)
  | .resolve id payload =>
    let (reply, run) := run.resolve now id payload
    (.returned reply, run, world)
  | .setState state =>
    let (reply, run) := run.setState state
    (.returned reply, run, world)
  | .putState state => (.returned (), { run with state }, world)
  | .pause _ => (.returned (), run, world)

-- The code of a step as data: a tree of requests to its run, each followed by what to do with the
-- reply. A script reaches its run in no other way. `ω` is the surroundings in which actions are
-- performed, such as the systems that they call.
inductive Script (ω : Type) (α : Type)
  | pure (value : α)
  | panic
  | call (request : Request ω) (next : request.Reply → Script ω α)

namespace Script

variable {ω α β : Type}

instance [Inhabited α] : Inhabited (Script ω α) := ⟨.pure default⟩

def bind : Script ω α → (α → Script ω β) → Script ω β
  | .pure value, next => next value
  | .panic, _ => .panic
  | .call request rest, next => .call request fun reply => (rest reply).bind next

instance : Monad (Script ω) where
  pure := .pure
  bind := bind

def request (request : Request ω) : Script ω request.Reply :=
  .call request .pure

-- Follows a script to its end. The time stands still meanwhile.
def run (now : Timestamp) : Script ω α → Run → ω → Outcome α × Run × ω
  | .pure value, run, world => (.returned value, run, world)
  | .panic, run, world => (.panicked, run, world)
  | .call request next, run, world =>
    match request.answer now run world with
    | (.returned reply, run, world) => (next reply).run now run world
    | (.panicked, run, world) => (.panicked, run, world)

end Script

abbrev HandlerM (ω : Type) := ExceptT Error (Script ω)

-- The code of a step. It is run from the top whenever its run is driven at the step.
abbrev Handler (ω : Type) := HandlerM ω StepOutcome

namespace HandlerM

variable {ω α : Type}

def look : HandlerM ω Run :=
  ExceptT.lift (Script.request .look)

def state : HandlerM ω Json := do
  return (← look).state

def panic : HandlerM ω α :=
  ExceptT.lift .panic

def action (key : String) (accepts : Json → Bool) (thunk : ω → ActionResult × ω) :
    HandlerM ω ActionOutput :=
  ExceptT.mk (Script.request (.action key accepts thunk))

def waitMillis (key : String) (millis : Nat) : HandlerM ω (Option ResumeEntry) :=
  ExceptT.mk (Script.request (.waitMillis key millis))

def waitEvent (key : String) (filter : Json) : HandlerM ω ResumeEntry :=
  ExceptT.mk (Script.request (.waitEvent key filter))

def setState (state : Json) : HandlerM ω Unit :=
  ExceptT.mk (Script.request (.setState state))

def putState (state : Json) : HandlerM ω Unit :=
  ExceptT.lift (Script.request (.putState state))

def pause (millis : Nat) : HandlerM ω Unit :=
  ExceptT.lift (Script.request (.pause millis))

def put (key : String) (value : Json) : HandlerM ω Unit := do
  putState ((← state).put key value)

def assign (key : String) (value : Json) : HandlerM ω Unit := do
  match (← state).assign? key value with
  | some state => putState state
  | none => panic

end HandlerM

end DurableWorkflow
