import DurableWorkflow.Run.Basic

namespace DurableWorkflow

abbrev Store := Dict Run

structure DueTimer where
  runId : String
  resumeId : String
  deriving DecidableEq

namespace DueTimer

def le (first second : DueTimer) : Bool :=
  if first.runId = second.runId then decide (first.resumeId ≤ second.resumeId)
  else decide (first.runId < second.runId)

end DueTimer

namespace Store

def dueAmong (now : Timestamp) (runs : List (String × Run)) : List DueTimer :=
  runs.flatMap fun (runId, run) => (run.dueTimers now).map fun resumeId => ⟨runId, resumeId⟩

-- The due timers, by run id and resume id.
def listDue (now : Timestamp) (store : Store) : List DueTimer :=
  (dueAmong now store.entries).mergeSort DueTimer.le

end Store

end DurableWorkflow
