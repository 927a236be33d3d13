import DurableWorkflow.Proofs.Engine.Vault
import DurableWorkflow.Proofs.Engine.Work

namespace DurableWorkflow

-- What a unit of work was driven with. The surroundings are its own, since handlers affect nothing
-- but their run.
structure Drive (ω : Type) where
  loaded : Option Run
  now    : Timestamp
  world  : ω

inductive Standing (ω : Type)
  | refused (error : Error)
  | reaching
  | asking
  | abandoned
  | opened
  | loaded (run : Option Run)
  -- What the unit of work stages is not stored yet.
  | driven (drive : Drive ω)
  -- The lock is not released yet.
  | stored (drive : Drive ω)
  | done (drive : Drive ω)
  -- The unit of work was given up.
  | dropped

structure Effort (ω : Type) where
  call     : Call
  standing : Standing ω

structure Deed (ω : Type) where
  call  : Call
  drive : Drive ω

-- Calls that are made at the same time, each by a task of its own: a task asks for the lock of the
-- run that its call addresses, obtains it, loads the run, drives it, and commits what it staged.
-- The steps of different tasks are taken in any order, and a task may give up before its call is
-- done. The tasks go by the lock objects of a `Vault`. What `Locks` makes of the same requests is
-- carried along, so that both can be compared.
structure Traffic (ω : Type) where
  vault : Vault
  locks : Locks
  store : Store
  tasks : TaskId → Option (Effort ω)
  obtained : List TaskId

namespace Deed

variable {ω : Type} (engine : Engine ω) (deed : Deed ω)

def outcome : CallEnd × Option Run × ω :=
  engine.work deed.drive.now deed.call deed.drive.loaded deed.drive.world

def staged : Option Run :=
  (deed.outcome engine).2.1

def left : Option Run :=
  (deed.staged engine).or deed.drive.loaded

end Deed

namespace Standing

variable {ω : Type}

def isOpen : Standing ω → Bool
  | opened | loaded _ | driven _ | stored _                      => true
  | refused _ | reaching | asking | abandoned | done _ | dropped => false

def isInside : Standing ω → Bool
  | asking | opened | loaded _ | driven _ | stored _    => true
  | refused _ | reaching | abandoned | done _ | dropped => false

def hasObtained : Standing ω → Bool
  | opened | loaded _ | driven _ | stored _ | done _ | dropped => true
  | refused _ | reaching | asking | abandoned                  => false

def snapshot? : Standing ω → Option (Option Run)
  | loaded run   => some run
  | driven drive => some drive.loaded
  | refused _ | reaching | asking | abandoned | opened | stored _ | done _ | dropped => none

def drive? : Standing ω → Option (Drive ω)
  | stored drive | done drive => some drive
  | refused _ | reaching | asking | abandoned | opened | loaded _ | driven _ | dropped => none

theorem hasObtained_of_isOpen {standing : Standing ω} (h : standing.isOpen) :
    standing.hasObtained := by
  cases standing <;> first | rfl | cases h

theorem isInside_of_isOpen {standing : Standing ω} (h : standing.isOpen) : standing.isInside := by
  cases standing <;> first | rfl | cases h

theorem isOpen_of_snapshot? {standing : Standing ω} {run : Option Run}
    (h : standing.snapshot? = some run) : standing.isOpen := by
  cases standing <;> first | rfl | cases h

end Standing

namespace Traffic

variable {ω : Type}

def start (store : Store) : Traffic ω where
  vault    := .empty
  locks    := .empty
  store
  tasks    := fun _ => none
  obtained := []

def put (s : Traffic ω) (task : TaskId) (call : Call) (standing : Standing ω) : Traffic ω :=
  { s with tasks := Function.update s.tasks task (some ⟨call, standing⟩) }

def At (s : Traffic ω) (task : TaskId) (call : Call) (standing : Standing ω) : Prop :=
  s.tasks task = some ⟨call, standing⟩

def addresses (s : Traffic ω) (runId : String) (task : TaskId) : Bool :=
  (s.tasks task).any (·.call.runId = runId)

def hasObtained (s : Traffic ω) (task : TaskId) : Bool :=
  (s.tasks task).any (·.standing.hasObtained)

def line (s : Traffic ω) (runId : String) : List TaskId :=
  s.obtained.filter (s.addresses runId)

def deed? (s : Traffic ω) (task : TaskId) : Option (Deed ω) :=
  (s.tasks task).bind fun effort => effort.standing.drive?.map (⟨effort.call, ·⟩)

def history (s : Traffic ω) (runId : String) : List (Deed ω) :=
  (s.line runId).filterMap s.deed?

inductive Closes (engine : Engine ω) (call : Call) : Standing ω → Standing ω → Prop
  | stored {drive : Drive ω} : Closes engine call (.stored drive) (.done drive)
  | settled {drive : Drive ω} (staged : Deed.staged engine ⟨call, drive⟩ = none) :
      Closes engine call (.driven drive) (.done drive)
  | dropped {standing : Standing ω} (isOpen : standing.isOpen) (pending : standing.drive? = none) :
      Closes engine call standing .dropped

namespace Closes

variable {engine : Engine ω} {call : Call} {standing last : Standing ω}

theorem isOpen (h : Closes engine call standing last) : standing.isOpen := by
  cases h with
  | stored | settled => rfl
  | dropped isOpen   => exact isOpen

theorem closed (h : Closes engine call standing last) : last.isInside = false := by
  cases h <;> rfl

theorem hasObtained (h : Closes engine call standing last) :
    last.hasObtained = standing.hasObtained := by
  rw [Standing.hasObtained_of_isOpen h.isOpen]
  cases h <;> rfl

end Closes

inductive Step (engine : Engine ω) (s : Traffic ω) : Traffic ω → Prop
  | refuse {task : TaskId} {call : Call} {error : Error}
      (idle    : s.tasks task = none)
      (refused : engine.refusal? call = some error) :
      Step engine s (s.put task call (.refused error))
  | find {task : TaskId} {call : Call} {cell : Nat}
      (idle     : s.tasks task = none)
      (admitted : engine.refusal? call = none)
      (found    : s.vault.table.get? call.runId = some cell) :
      Step engine s
        { s.put task call .reaching with vault := s.vault.refer ⟨task, call.runId, cell⟩ }
  | make {task : TaskId} {call : Call}
      (idle     : s.tasks task = none)
      (admitted : engine.refusal? call = none)
      (absent   : s.vault.table.get? call.runId = none) :
      Step engine s
        { s.put task call .reaching with
          vault := (s.vault.make call.runId).refer ⟨task, call.runId, s.vault.made⟩ }
  | ask {task : TaskId} {call : Call} {cell : Nat}
      (reaching : s.At task call .reaching)
      (refers   : ⟨task, call.runId, cell⟩ ∈ s.vault.refs) :
      Step engine s
        { s.put task call .asking with
          vault := s.vault.change cell (Lock.ask task)
          locks := s.locks.ask call.runId task }
  | leave {task : TaskId} {call : Call} (reaching : s.At task call .reaching) :
      Step engine s { s.put task call .abandoned with vault := s.vault.forget task }
  | abandon {task : TaskId} {call : Call} {cell : Nat}
      (asking : s.At task call .asking)
      (refers : ⟨task, call.runId, cell⟩ ∈ s.vault.refs) :
      Step engine s
        { s.put task call .abandoned with
          vault := (s.vault.change cell (Lock.quit task)).forget task
          locks := s.locks.abandon call.runId task }
  | obtain {task : TaskId} {call : Call} {cell : Nat}
      (asking  : s.At task call .asking)
      (refers  : ⟨task, call.runId, cell⟩ ∈ s.vault.refs)
      (granted : (s.vault.cells cell).owner = some task) :
      Step engine s { s.put task call .opened with obtained := s.obtained ++ [task] }
  | load {task : TaskId} {call : Call} (opened : s.At task call .opened) :
      Step engine s (s.put task call (.loaded (s.store.get? call.runId)))
  | drive {task : TaskId} {call : Call} {run : Option Run} (now : Timestamp) (world : ω)
      (loaded : s.At task call (.loaded run)) :
      Step engine s (s.put task call (.driven ⟨run, now, world⟩))
  | store {task : TaskId} {call : Call} {drive : Drive ω} {run : Run}
      (driven : s.At task call (.driven drive))
      (staged : Deed.staged engine ⟨call, drive⟩ = some run) :
      Step engine s { s.put task call (.stored drive) with store := s.store.insert call.runId run }
  | close {task : TaskId} {call : Call} {standing last : Standing ω} {cell : Nat}
      (holds  : s.At task call standing)
      (refers : ⟨task, call.runId, cell⟩ ∈ s.vault.refs)
      (closes : Closes engine call standing last) :
      Step engine s
        { s.put task call last with
          vault := s.vault.release ⟨task, call.runId, cell⟩
          locks := s.locks.release call.runId }

-- The states that can come about from a store while nobody works on it.
inductive Reaches (engine : Engine ω) (first : Store) : Traffic ω → Prop
  | start : Reaches engine first (.start first)
  | step {s s' : Traffic ω} (reached : Reaches engine first s) (step : Step engine s s') :
      Reaches engine first s'

end Traffic

end DurableWorkflow
