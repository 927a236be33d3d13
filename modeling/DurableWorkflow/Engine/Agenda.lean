import DurableWorkflow.Engine.Locks

namespace DurableWorkflow

-- Which task goes on next. Tasks that can go on have their turns in the order in which they were
-- woken. A task that pauses sets an alarm; when time comes to it, the tasks are woken in the order
-- in which they set their alarms.
structure Agenda where
  ready : List TaskId
  alarms : List (Nat × TaskId)

namespace Agenda

def empty : Agenda := ⟨[], []⟩

def wake (task : TaskId) (agenda : Agenda) : Agenda :=
  { agenda with ready := agenda.ready ++ [task] }

def wakeFirst (task : TaskId) (agenda : Agenda) : Agenda :=
  { agenda with ready := task :: agenda.ready }

def wakeAt (time : Nat) (task : TaskId) (agenda : Agenda) : Agenda :=
  { agenda with alarms := agenda.alarms ++ [(time, task)] }

def silence (task : TaskId) (agenda : Agenda) : Agenda :=
  { agenda with alarms := agenda.alarms.filter (·.2 ≠ task) }

def next? (agenda : Agenda) : Option Nat :=
  (agenda.alarms.map Prod.fst).min?

def ring (time : Nat) (agenda : Agenda) : Agenda where
  ready := agenda.ready ++ (agenda.alarms.filter (·.1 ≤ time)).map Prod.snd
  alarms := agenda.alarms.filter (time < ·.1)

end Agenda

end DurableWorkflow
