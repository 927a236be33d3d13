import DurableWorkflow.Data.Dict

namespace DurableWorkflow

abbrev TaskId := Nat

-- At most one task works on a stored run at a time. A task asks for the lock of the run, and gets
-- it in the order of asking. The lock enters the table when it is asked for, and leaves it when a
-- task releases it and nobody waits.
structure Lock where
  owner : Option TaskId
  waiting : List TaskId
  deriving DecidableEq

namespace Lock

def free : Lock := ⟨none, []⟩

def ask (task : TaskId) (lock : Lock) : Lock :=
  match lock.owner with
  | none => { lock with owner := some task }
  | some _ => { lock with waiting := lock.waiting ++ [task] }

def pass (lock : Lock) : Lock :=
  match lock.waiting with
  | [] => ⟨none, []⟩
  | next :: rest => ⟨some next, rest⟩

end Lock

abbrev Locks := Dict Lock

namespace Locks

def lock (locks : Locks) (runId : String) : Lock :=
  (locks.get? runId).getD .free

def grants (locks : Locks) (runId : String) (task : TaskId) : Bool :=
  (locks.lock runId).owner = some task

def ask (locks : Locks) (runId : String) (task : TaskId) : Locks :=
  locks.insert runId ((locks.lock runId).ask task)

def release (locks : Locks) (runId : String) : Locks :=
  let lock := (locks.lock runId).pass
  if lock.owner.isNone then locks.erase runId else locks.insert runId lock

-- A task that asked for the lock of a run, and has not begun to work on it, goes away. If it was
-- its turn already, the lock is passed on. Either way the lock stays in the table.
def abandon (locks : Locks) (runId : String) (task : TaskId) : Locks :=
  let lock := locks.lock runId
  if lock.owner = some task then locks.insert runId lock.pass
  else locks.insert runId { lock with waiting := lock.waiting.erase task }

end Locks

end DurableWorkflow
