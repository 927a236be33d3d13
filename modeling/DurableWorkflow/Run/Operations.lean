import DurableWorkflow.Data.Outcome
import DurableWorkflow.Data.Word
import DurableWorkflow.Run.Basic

namespace DurableWorkflow

def updateFirst {α : Type} (p : α → Bool) (f : α → α) : List α → List α
  | [] => []
  | item :: rest => if p item then f item :: rest else item :: updateFirst p f rest

namespace ResumeEntry

def fire : ResumeEntry → ResumeEntry
  | .timer id deadline _ => .timer id deadline true
  | entry => entry

def deliver (payload : Json) : ResumeEntry → ResumeEntry
  | .event id filter _ => .event id filter (some payload)
  | entry => entry

def awaits (id : String) (entry : ResumeEntry) : Bool :=
  entry.id = id && !entry.isResolved

end ResumeEntry

inductive ActionResult
  | returned (value : Json)
  | failed (message : String)
  | panicked

structure ActionOutput where
  value : Json
  -- Whether the action was performed now, and not recalled.
  recorded : Bool

inductive StepOutcome
  | advance (next : String)
  | suspend (entry : ResumeEntry)
  | done
  deriving DecidableEq

inductive Progress
  | advanced (next : String)
  | suspended (entry : ResumeEntry)
  | finished
  deriving DecidableEq

namespace Run

def closedError (run : Run) : Error :=
  .runClosed run.name run.status

def cancel (run : Run) : Run :=
  { run with status := .cancelled, pending := run.pending.filter ResumeEntry.isResolved }

def fail (error : Error) (run : Run) : Run :=
  { run with status := .failed, error := some error.message }

def audit (now : Timestamp) (action : String) (outcome : AuditOutcome) (run : Run) : Run :=
  { run with auditLog := run.auditLog.map (· ++ [⟨run.currentStep, action, now, outcome⟩]) }

def setState (state : Json) (run : Run) : Except Error Unit × Run :=
  if run.status.isClosed then (.error run.closedError, run)
  else (.ok (), { run with state })

def recalled (accepts : Json → Bool) (stored : Json) : Except Error ActionOutput :=
  if accepts stored then .ok ⟨stored, false⟩ else .error .serialization

def recordSuccess (now : Timestamp) (key : String) (value : Json) (run : Run) : Run :=
  audit now key .success { run with memo := run.memo.record key value }

-- Performs the action of `key` in the surroundings `world`, unless its result is in the memo.
-- `accepts` is the shape that a recalled result has to have. An operation that fails changes
-- nothing, except that a failed action is recorded in the audit log.
def performAction {ω : Type} (now : Timestamp) (key : String) (accepts : Json → Bool)
    (thunk : ω → ActionResult × ω) (run : Run) (world : ω) :
    Outcome (Except Error ActionOutput) × Run × ω :=
  match run.memo.get? key with
  | some stored => (.returned (recalled accepts stored), run, world)
  | none =>
    match thunk world with
    | (.returned value, world) =>
      (.returned (.ok ⟨value, true⟩), run.recordSuccess now key value, world)
    | (.failed message, world) =>
      (.returned (.error (.actionFailed key message)), run.audit now key .failure, world)
    | (.panicked, world) => (.panicked, run, world)

def entry? (run : Run) (id : String) : Option ResumeEntry :=
  run.pending.find? (·.id = id)

def register (entry : ResumeEntry) (run : Run) : Run :=
  { run with pending := run.pending ++ [entry] }

def conflict (run : Run) (id : String) : Error :=
  .resumeIdConflict run.currentStep id

def pollTimer (now : Timestamp) (id : String) (deadline : Timestamp) (fired : Bool) (run : Run) :
    Except Error (Option ResumeEntry) × Run :=
  if fired || decide (deadline ≤ now) then
    (.ok none, { run with pending := updateFirst (·.id = id) ResumeEntry.fire run.pending })
  else (.ok (some (.timer id deadline fired)), run)

-- Waits `millis` from the first call for this key in the current step. The result is the timer to
-- suspend on, or nothing once its deadline has passed.
def waitMillis (now : Timestamp) (key : String) (millis : Nat) (run : Run) :
    Except Error (Option ResumeEntry) × Run :=
  let id := resumeId run.currentStep key
  match run.entry? id with
  | some (.timer _ deadline fired) => run.pollTimer now id deadline fired
  | some (.event ..) => (.error (run.conflict id), run)
  | none =>
    let deadline := now.after millis
    (run.register (.timer id deadline false)).pollTimer now id deadline false

def waitNanos (now : Timestamp) (key : String) (nanos : Nat) (run : Run) :
    Except Error (Option ResumeEntry) × Run :=
  run.waitMillis now key (min (nanos / 1000000) Word.maxUnsigned)

def waitEvent (key : String) (filter : Json) (run : Run) : Except Error ResumeEntry × Run :=
  let id := resumeId run.currentStep key
  match run.entry? id with
  | some (.event id filter delivered) => (.ok (.event id filter delivered), run)
  | some (.timer ..) => (.error (run.conflict id), run)
  | none => (.ok (.event id filter none), run.register (.event id filter none))

-- Resolves an outstanding entry. An event takes the payload, `null` if there is none. A timer is
-- fired only if its deadline has passed; the result is whether the entry was resolved.
def resolve (now : Timestamp) (id : String) (payload : Option Json) (run : Run) :
    Except Error Bool × Run :=
  match run.pending.find? (ResumeEntry.awaits id) with
  | none => (.error (.unknownResume run.name id), run)
  | some (.event ..) =>
    let deliver := ResumeEntry.deliver (payload.getD .null)
    (.ok true, { run with pending := updateFirst (ResumeEntry.awaits id) deliver run.pending })
  | some (.timer _ deadline _) =>
    if deadline ≤ now then
      (.ok true, { run with
        pending := updateFirst (ResumeEntry.awaits id) ResumeEntry.fire run.pending })
    else (.ok false, run)

def leaveStep (step : String) (run : Run) : Run :=
  { run with pending := run.pending.filter fun entry => !entry.belongsTo step }

def settle (step : String) : StepOutcome → Run → Progress × Run
  | .advance next, run => (.advanced next, { run.leaveStep step with currentStep := next })
  | .suspend entry, run => (.suspended entry, { run with status := .suspended })
  | .done, run => (.finished, { run.leaveStep step with status := .finished })

end Run

end DurableWorkflow
