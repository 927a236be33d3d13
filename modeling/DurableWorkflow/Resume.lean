import DurableWorkflow.Clock
import DurableWorkflow.Json.Basic

namespace DurableWorkflow

def resumeId (step key : String) : String :=
  step ++ ":" ++ key

-- What a run is parked on: a timer with a deadline or an event to be delivered. An entry is named
-- by a resume id made of the step and a key of the step's choice, so that a step which runs again
-- finds the entry it registered the first time.
inductive ResumeEntry
  -- Resume no earlier than `deadline`; `fired` is set once a reading past it was observed.
  | timer (id : String) (deadline : Timestamp) (fired : Bool)
  | event (id : String) (filter : Json) (delivered : Option Json)
  deriving DecidableEq

namespace ResumeEntry

instance : Inhabited ResumeEntry := ⟨.timer "" default false⟩

def id : ResumeEntry → String
  | .timer id _ _ | .event id _ _ => id

def deadline? : ResumeEntry → Option Timestamp
  | .timer _ deadline _ => some deadline
  | .event .. => none

def filter? : ResumeEntry → Option Json
  | .timer .. => none
  | .event _ filter _ => some filter

def isTimer : ResumeEntry → Bool
  | .timer .. => true
  | .event .. => false

def isEvent : ResumeEntry → Bool
  | .timer .. => false
  | .event .. => true

def isResolved : ResumeEntry → Bool
  | .timer _ _ fired => fired
  | .event _ _ delivered => delivered.isSome

def belongsTo (step : String) (entry : ResumeEntry) : Bool :=
  (step.toList ++ [':']).isPrefixOf entry.id.toList

def isDue (now : Timestamp) : ResumeEntry → Bool
  | .timer _ deadline fired => !fired && decide (deadline ≤ now)
  | .event .. => false

end ResumeEntry

end DurableWorkflow
