import DurableWorkflow.Engine.Schedule
import DurableWorkflow.Proofs.Engine.Locks
import DurableWorkflow.Proofs.Engine.Work

namespace DurableWorkflow

def CallEnd.accepted : CallEnd → Bool
  | .passed _ | .settled                 => true
  | .refused _ | .panicked | .unfinished => false

def Call.mayMeet : Call → Error → Bool
  | .run ..,    .unknownWorkflowType _ => true
  | .run ..,    .runAlreadyExists _    => true
  | .resume .., .unknownRun _          => true
  | .resume .., .unknownWorkflowType _ => true
  | .resume .., .unknownResume ..      => true
  | .resume .., .runClosed ..          => true
  | .retry _,   .unknownRun _          => true
  | .retry _,   .runNotFailed _        => true
  | .retry _,   .unknownWorkflowType _ => true
  | .cancel _,  .unknownRun _          => true
  | .cancel _,  .runClosed ..          => true
  | _,          _                      => false

structure Call.Leaves (call : Call) (ending : CallEnd) (store store' : Store) : Prop where
  isolated  : ∀ runId, call.runId ≠ runId → store'.get? runId = store.get? runId
  unchanged : ending.accepted = false → store' = store
  refusal   : ∀ error, ending = .refused error → call.mayMeet error

theorem Call.Leaves.same {call : Call} {ending : CallEnd} {store : Store}
    (refusal : ∀ error, ending = .refused error → call.mayMeet error) :
    call.Leaves ending store store :=
  ⟨fun _ _ => rfl, fun _ => rfl, refusal⟩

namespace Engine

variable {ω : Type} {engine : Engine ω} {now : Timestamp} {store store' : Store} {call : Call}
  {world world' : ω} {loaded staged : Option Run} {ending : CallEnd} {runId : String}
  {error : Error}

theorem bind_eq_error_iff {α β : Type} {first : Except Error α} {next : α → Except Error β} :
    first >>= next = .error error ↔
      first = .error error ∨ ∃ a, first = .ok a ∧ next a = .error error := by
  cases first <;> simp [bind, Except.bind]

theorem eq_of_workflow {workflowType : String} (h : engine.workflow workflowType = .error error) :
    error = .unknownWorkflowType workflowType := by
  rw [workflow] at h
  cases known : engine.workflows.get? workflowType <;> simp [known] at h
  exact h.symm

theorem eq_of_stored (h : stored store runId = .error error) : error = .unknownRun runId := by
  rw [stored] at h
  cases found : store.get? runId <;> simp [found] at h
  exact h.symm

theorem eq_of_resolve {run after : Run} {id : String} {payload : Option Json}
    (h : run.resolve now id payload = (.error error, after)) :
    error = .unknownResume run.name id := by
  rw [Run.resolve] at h
  split at h
  case h_1 => cases h; rfl
  case h_2 => cases h
  case h_3 => split at h <;> cases h

theorem mayMeet_of_prepare (h : engine.prepare now store call = .error error) :
    call.mayMeet error := by
  cases call
  case run runId initial =>
    rcases bind_eq_error_iff.mp h with unknown | ⟨workflow, known, h⟩
    · cases eq_of_workflow unknown
      rfl
    · split at h
      case isTrue  => cases h; rfl
      case isFalse => cases h
  case resume runId id payload =>
    rcases bind_eq_error_iff.mp h with missing | ⟨run, stored, h⟩
    · cases eq_of_stored missing
      rfl
    rcases bind_eq_error_iff.mp h with unknown | ⟨workflow, known, h⟩
    · cases eq_of_workflow unknown
      rfl
    rcases resolved : run.resolve now id payload with ⟨_ | fired, after⟩ <;>
      simp only [resolved] at h
    case error =>
      cases h
      cases eq_of_resolve resolved
      rfl
    case ok =>
      rcases bind_eq_error_iff.mp h with h | ⟨_, _, h⟩
      · cases h
      split at h <;> cases h
      rfl
  case retry runId =>
    rcases bind_eq_error_iff.mp h with missing | ⟨run, stored, h⟩
    · cases eq_of_stored missing
      rfl
    split at h
    case isTrue => cases h; rfl
    case isFalse =>
      rcases bind_eq_error_iff.mp h with unknown | ⟨workflow, known, h⟩
      · cases eq_of_workflow unknown
        rfl
      · cases h
  case cancel runId =>
    rcases bind_eq_error_iff.mp h with missing | ⟨run, stored, h⟩
    · cases eq_of_stored missing
      rfl
    cases status : run.status <;> simp only [status] at h <;> cases h
    rfl

theorem mayMeet_of_refusal (h : engine.refusal? call = some error) : call.mayMeet error := by
  cases call <;> rw [refusal?] at h
  case run runId initial =>
    split at h
    case h_1 unknown =>
      cases h
      cases eq_of_workflow unknown
      rfl
    case h_2 => cases h
  all_goals cases h

theorem staged_of_rejected (h : engine.work now call loaded world = (ending, staged, world'))
    (rejected : ending.accepted = false) : staged = none := by
  cases work_eq_iff.mp h with
  | refused => rfl
  | settled | kept => cases rejected
  | @driven _ _ _ result => cases result <;> first | rfl | cases rejected

theorem mayMeet_of_work (h : engine.work now call loaded world = (.refused error, staged, world')) :
    call.mayMeet error := by
  generalize he : CallEnd.refused error = ending at h
  cases work_eq_iff.mp h with
  | refused refused =>
    cases he
    exact mayMeet_of_prepare refused
  | settled | kept => cases he
  | @driven _ _ _ result => cases result <;> cases he

theorem perform_leaves (h : engine.perform now call store world = (ending, store', world')) :
    call.Leaves ending store store' := by
  obtain ⟨staged, work, rfl⟩ := perform_eq_iff.mp h
  refine { isolated := ?isolated, unchanged := ?unchanged, refusal := ?refusal }
  case isolated => exact fun _ => Store.get?_commit_of_ne
  case unchanged =>
    intro rejected
    rw [staged_of_rejected work rejected]
    rfl
  case refusal =>
    rintro error rfl
    exact mayMeet_of_work work

theorem fire_isolated {timers : List DueTimer} {count : Nat} {swept : SweepEnd}
    (h : engine.fire now timers count store world = (swept, store', world'))
    (hne : ∀ timer ∈ timers, timer.runId ≠ runId) : store'.get? runId = store.get? runId := by
  induction timers generalizing count store world
  case nil =>
    cases h
    rfl
  case cons timer rest ih =>
    have ⟨hne, others⟩ := List.forall_mem_cons.mp hne
    rw [fire] at h
    rcases hp : engine.perform now (.resume timer.runId timer.resumeId none) store world with
      ⟨ending, store₁, world₁⟩
    have first : store₁.get? runId = store.get? runId := (perform_leaves hp).isolated _ hne
    rw [hp] at h
    cases ending <;> dsimp only at h
    case panicked   => cases h; exact first
    case unfinished => cases h; exact first
    all_goals exact (ih h others).trans first

end Engine

def Task.works {ω : Type} (task : Task ω) : List Work :=
  match task.stage with
  | .idle                            => task.rest
  | .asking work | .pausing work _ _ => work :: task.rest

namespace Service

variable {ω : Type} {service service' : Service ω} {id : TaskId} {work : Work}
  {works : List Work} {task : Task ω} {runId : String}

-- What may happen between two turns of a task: the other tasks leave the store and the locks alone.
structure Quiet (service service' : Service ω) : Prop where
  store : service'.store = service.store
  locks : service'.locks = service.locks

inductive Turns : Task ω → Service ω → Task ω → Service ω → Prop
  | refl {task : Task ω} {service : Service ω} : Turns task service task service
  | turn {task task' : Task ω} {service service' : Service ω}
      (turns : Turns task service task' service') :
      Turns task service (service'.turn task').1 (service'.turn task').2
  | quiet {task task' : Task ω} {service service' service'' : Service ω}
      (turns : Turns task service task' service') (quiet : service'.Quiet service'') :
      Turns task service task' service''

-- What a call was taken to, and what it made of the service: only at its end it stores something.
inductive Carries (call : Call) (service : Service ω) : Reached ω → Service ω → Prop
  | paused {service' : Service ω} {flight : Flight ω} {wake : Nat}
      (quiet : service.Quiet service') :
      Carries call service (.paused flight wake) service'
  | ended {service' : Service ω} {ending : CallEnd} (locks : service'.locks = service.locks)
      (leaves : call.Leaves ending service.store service'.store) :
      Carries call service (.ended (.called ending)) service'

theorem Carries.get?_store {call : Call} {reached : Reached ω}
    (h : Carries call service reached service') (hne : call.runId ≠ runId) :
    service'.store.get? runId = service.store.get? runId := by
  cases h with
  | paused quiet   => rw [quiet.store]
  | ended _ leaves => exact leaves.isolated runId hne

theorem conclude_leaves {call : Call} {store : Store} {ending : PassEnd} {run : Run} :
    call.Leaves (Engine.conclude store call.runId ending run).1 store
      (Engine.conclude store call.runId ending run).2 := by
  rw [Engine.conclude_eq_stage]
  refine { isolated := ?isolated, unchanged := ?unchanged, refusal := ?refusal }
  case isolated => exact fun _ => Store.get?_commit_of_ne
  case unchanged =>
    cases ending <;> intro rejected
    case panicked   => rfl
    case unfinished => rfl
    all_goals cases rejected
  case refusal => cases ending <;> exact nofun

theorem arrive_carries {call : Call} (leg : Flight.Leg ω × ω) :
    Carries call service (service.arrive call.runId leg).1 (service.arrive call.runId leg).2 := by
  match leg with
  | (.landed _ _, _) => exact .ended rfl conclude_leaves
  | (.paused _ _, _) => exact .paused ⟨rfl, rfl⟩

theorem begin_carries {call : Call} :
    Carries call service (service.begin (.call call)).1 (service.begin (.call call)).2 := by
  rw [Service.begin]
  split
  case h_1 error refused =>
    refine .ended rfl (.same ?_)
    rintro _ ⟨⟩
    exact Engine.mayMeet_of_prepare refused
  case h_2 => exact .ended rfl (.same nofun)
  case h_3 run _ =>
    refine .ended rfl { isolated := ?_, unchanged := nofun, refusal := nofun }
    intro runId hne
    exact (Dict.get?_insert).trans (if_neg hne)
  case h_4 => exact arrive_carries _

@[simp]
theorem release_locks : (service.release runId).locks = service.locks.release runId := by
  rw [release]
  split <;> rfl

@[simp]
theorem release_store : (service.release runId).store = service.store := by
  rw [release]
  split <;> rfl

theorem takeUp_cons {rest : List Work} {ends : List WorkEnd} :
    takeUp id (work :: rest) ends service =
      match service.refusal? work with
      | some error => takeUp id rest (.called (.refused error) :: ends) service
      | none =>
        let asking := { service with locks := service.locks.ask work.runId id }
        let task : Task ω := ⟨id, .asking work, rest, ends⟩
        if asking.locks.grants work.runId id then proceed task work (asking.begin work)
        else (task, asking) := by
  rw [takeUp]
  cases service.refusal? work
  case some => rfl
  case none =>
    dsimp only
    split
    case isFalse => rfl
    case isTrue  =>
      rcases begin _ work with ⟨_ | _, service⟩ <;> rfl

inductive Carrying (first : Service ω) (id : TaskId) (call : Call) : Task ω → Service ω → Prop
  | begun {service : Service ω}
      (store : service.store = first.store)
      (locks : ∀ runId, service.locks.lock runId = first.locks.lock runId) :
      Carrying first id call (Task.create id [.call call]) service
  | pausing {service : Service ω} {flight : Flight ω} {wake : Nat}
      (store : service.store = first.store)
      (locks : ∀ runId, service.locks.lock runId =
        if call.runId = runId then ⟨some id, []⟩ else first.locks.lock runId) :
      Carrying first id call ⟨id, .pausing (.call call) flight wake, [], []⟩ service
  | done {service : Service ω} {ending : CallEnd}
      (leaves : call.Leaves ending first.store service.store)
      (locks : ∀ runId, service.locks.lock runId = first.locks.lock runId) :
      Carrying first id call ⟨id, .idle, [], [.called ending]⟩ service

section Carrying

variable {first : Service ω} {call : Call}

theorem proceed_carrying {stage : Stage ω} {reached : Reached ω}
    (h : Carries call service reached service') (free : first.locks.lock call.runId = .free)
    (store : service.store = first.store)
    (locks : ∀ runId, service.locks.lock runId =
      if call.runId = runId then ⟨some id, []⟩ else first.locks.lock runId) :
    Carrying first id call (proceed ⟨id, stage, [], []⟩ (.call call) (reached, service')).1
      (proceed ⟨id, stage, [], []⟩ (.call call) (reached, service')).2 := by
  cases h with
  | paused quiet =>
    rw [← quiet.locks] at locks
    exact .pausing (quiet.store.trans store) locks
  | @ended _ ending held leaves =>
    rw [store] at leaves
    have released (runId : String) :
        (service'.release call.runId).locks.lock runId = first.locks.lock runId := by
      rw [release_locks, held, Locks.lock_release, locks, locks, if_pos rfl]
      split
      case isTrue h => rw [← h, free]; rfl
      case isFalse  => rfl
    have done : Carrying first id call ⟨id, .idle, [], [.called ending]⟩
        (service'.release call.runId) :=
      .done (by rwa [release_store]) released
    rw [proceed]
    dsimp only
    split <;> exact done

theorem turn_carrying (free : first.locks.lock call.runId = .free)
    (h : Carrying first id call task service) :
    Carrying first id call (service.turn task).1 (service.turn task).2 := by
  rw [turn]
  split
  case isFalse => exact h
  case isTrue =>
    cases h with
    | begun store locks =>
      dsimp only [Task.create]
      rw [takeUp_cons]
      have held (runId : String) : (service.locks.ask call.runId id).lock runId =
          if call.runId = runId then ⟨some id, []⟩ else first.locks.lock runId := by
        rw [Locks.lock_ask, locks, locks, free]
        rfl
      split
      case h_1 error refusal =>
        refine .done (store ▸ .same ?_) locks
        rintro _ ⟨⟩
        exact Engine.mayMeet_of_refusal refusal
      case h_2 =>
        have granted : (service.locks.ask call.runId id).grants call.runId id := by
          rw [Locks.grants, held, if_pos rfl]
          exact decide_eq_true rfl
        dsimp only
        split
        case isTrue        => exact proceed_carrying begin_carries free store held
        case isFalse other => exact absurd granted other
    | pausing store locks => exact proceed_carrying (arrive_carries _) free store locks
    | done leaves locks => exact .done leaves locks

theorem Turns.carrying (turns : Turns (Task.create id [.call call]) first task service)
    (free : first.locks.lock call.runId = .free) : Carrying first id call task service := by
  generalize hb : Task.create id [.call call] = begun at turns
  induction turns
  case refl =>
    subst hb
    exact .begun rfl fun _ => rfl
  case turn _ ih => exact turn_carrying free (ih free)
  case quiet quiet ih =>
    cases ih free with
    | begun store locks   => exact .begun (quiet.store.trans store) (by rwa [quiet.locks])
    | pausing store locks => exact .pausing (quiet.store.trans store) (by rwa [quiet.locks])
    | done leaves locks   => exact .done (by rwa [quiet.store]) (by rwa [quiet.locks])

end Carrying

-- A task has only works on other runs before it, and what is stored of this one is as it was found.
structure Spares (runId : String) (found : Option Run) (task : Task ω) (service : Service ω) :
    Prop where
  works : ∀ work ∈ task.works, work.runId ≠ runId
  same  : service.store.get? runId = found

section Spares

variable {found : Option Run}

theorem get?_arrive {other : String} {leg : Flight.Leg ω × ω} (h : other ≠ runId) :
    (service.arrive other leg).2.store.get? runId = service.store.get? runId := by
  match leg with
  | (.landed ending run, _) =>
    dsimp only [arrive]
    rw [Engine.conclude_eq_stage]
    exact Store.get?_commit_of_ne h
  | (.paused _ _, _) => rfl

theorem get?_begin (h : work.runId ≠ runId) :
    (service.begin work).2.store.get? runId = service.store.get? runId := by
  cases work
  case call call => exact begin_carries.get?_store h
  case write other run =>
    cases run
    case none => rfl
    case some => exact Dict.get?_insert.trans (if_neg h)

theorem proceed_spares {stage : Stage ω} {rest : List Work} {ends : List WorkEnd}
    {reached : Reached ω}
    (next : ∀ (ends : List WorkEnd) (service : Service ω), service.store.get? runId = found →
      Spares runId found (takeUp id rest ends service).1 (takeUp id rest ends service).2)
    (works : ∀ other ∈ work :: rest, other.runId ≠ runId)
    (same : service.store.get? runId = found) :
    Spares runId found (proceed ⟨id, stage, rest, ends⟩ work (reached, service)).1
      (proceed ⟨id, stage, rest, ends⟩ work (reached, service)).2 := by
  cases reached
  case paused => exact ⟨works, same⟩
  case ended ending =>
    have released : (service.release work.runId).store.get? runId = found := by rwa [release_store]
    rw [proceed]
    dsimp only
    split
    case isTrue  => exact ⟨nofun, released⟩
    case isFalse => exact next _ _ released

theorem takeUp_spares {ends : List WorkEnd} (h : ∀ work ∈ works, work.runId ≠ runId)
    (same : service.store.get? runId = found) :
    Spares runId found (takeUp id works ends service).1 (takeUp id works ends service).2 := by
  induction works generalizing ends service
  case nil => exact ⟨h, same⟩
  case cons work rest ih =>
    have ⟨hw, hr⟩ := List.forall_mem_cons.mp h
    rw [takeUp_cons]
    split
    case h_1 => exact ih hr same
    case h_2 =>
      dsimp only
      split
      case isTrue  => exact proceed_spares (fun _ _ => ih hr) h ((get?_begin hw).trans same)
      case isFalse => exact ⟨h, same⟩

theorem turn_spares (h : Spares runId found task service) :
    Spares runId found (service.turn task).1 (service.turn task).2 := by
  rw [turn]
  split
  case isFalse => exact h
  case isTrue  =>
    obtain ⟨id, stage, rest, ends⟩ := task
    have ⟨works, same⟩ := h
    cases stage
    case idle => exact takeUp_spares works same
    case asking work =>
      have ⟨hw, hr⟩ := List.forall_mem_cons.mp works
      exact proceed_spares (fun _ _ => takeUp_spares hr) works ((get?_begin hw).trans same)
    case pausing work flight wake =>
      have ⟨hw, hr⟩ := List.forall_mem_cons.mp works
      exact proceed_spares (fun _ _ => takeUp_spares hr) works ((get?_arrive hw).trans same)

theorem Turns.get?_store (turns : Turns (Task.create id works) service task service')
    (h : ∀ work ∈ works, work.runId ≠ runId) :
    service'.store.get? runId = service.store.get? runId := by
  suffices Spares runId (service.store.get? runId) task service' from this.same
  generalize hb : Task.create id works = begun at turns
  induction turns
  case refl =>
    subst hb
    exact ⟨h, rfl⟩
  case turn _ ih        => exact turn_spares ih
  case quiet _ quiet ih =>
    have ⟨works, same⟩ := ih
    exact ⟨works, by rwa [quiet.store]⟩

end Spares

end Service

-- A call changes the run that it addresses, or nothing: a call that is refused or broken off leaves
-- the whole store as it was, and every call leaves the locks as it found them. This is so when a
-- call is made at once, and when it takes as many turns as its handlers pause.
structure Engine.Atomic {ω : Type} (engine : Engine ω) : Prop where
  performed : ∀ {now call store store' world world' ending},
    engine.perform now call store world = (ending, store', world') → call.Leaves ending store store'
  swept : ∀ {now store store' world world' ending},
    engine.fireDueTimers now store world = (ending, store', world') →
      ∀ runId, (∀ timer ∈ store.listDue now, timer.runId ≠ runId) →
        store'.get? runId = store.get? runId
  -- The same of a call that takes its turns: when it is done, all locks are as they were before.
  carried : ∀ {service service' : Service ω} {id call task},
    service.engine = engine → service.locks.lock call.runId = .free →
      Service.Turns (Task.create id [.call call]) service task service' → task.isDone →
        ∃ ending, task.ends = [.called ending] ∧ call.Leaves ending service.store service'.store ∧
          ∀ runId, service'.locks.lock runId = service.locks.lock runId
  sweptInTurns : ∀ {service service' : Service ω} {id task},
    service.engine = engine → Service.Turns (Task.create id service.dueWorks) service task service' →
      ∀ runId, (∀ timer ∈ service.store.listDue service.now, timer.runId ≠ runId) →
        service'.store.get? runId = service.store.get? runId

theorem Engine.calls_atomic {ω : Type} (engine : Engine ω) : engine.Atomic where
  performed := perform_leaves
  swept h _ hne := fire_isolated h hne
  carried := by
    intro service service' id call task _ free turns done
    cases turns.carrying free with
    | begun | pausing => cases done
    | @done _ ending leaves locks => exact ⟨ending, rfl, leaves, locks⟩
  sweptInTurns := by
    intro service service' id task _ turns runId hne
    refine turns.get?_store fun work due => ?_
    obtain ⟨timer, listed, rfl⟩ := List.mem_map.mp due
    exact hne timer listed

namespace Engine.Fuse

def blow : HandlerM Unit StepOutcome := do
  HandlerM.pause 100
  HandlerM.panic

def box : Engine Unit :=
  ⟨.ofPairs [("fuse", ⟨"fuse", "blow", .null, .ofPairs [("blow", blow)]⟩)], .standard⟩

def before : Service Unit :=
  .create box .epoch ()

def start : Call :=
  .run "f" (Run.create "fuse" "blow")

theorem blown :
    ∃ task after, Service.Turns (Task.create 1 [.call start]) before task after ∧
      task.ends = [.called .panicked] ∧ after.store = before.store ∧
      after.locks.lock "f" = .free := by
  let paused := before.turn (Task.create 1 [.call start])
  have turns : Service.Turns (Task.create 1 [.call start]) before
      ((paused.2.forward 100).turn paused.1).1 ((paused.2.forward 100).turn paused.1).2 :=
    .turn (.quiet (.turn .refl) ⟨rfl, rfl⟩)
  have ⟨ending, ends, leaves, locks⟩ := box.calls_atomic.carried rfl rfl turns rfl
  cases ends
  exact ⟨_, _, turns, rfl, leaves.unchanged rfl, locks "f"⟩

end Engine.Fuse

end DurableWorkflow
