import DurableWorkflow.Proofs.Engine.Course

namespace DurableWorkflow

structure Pass (ω : Type) where
  runId    : String
  workflow : Workflow ω
  time     : Timestamp
  budget   : Budget
  run      : Run
  world    : ω

namespace Pass

variable {ω : Type}

def ending (pass : Pass ω) : PassEnd :=
  (pass.workflow.execute pass.time pass.budget pass.run pass.world).1

def after (pass : Pass ω) : Run :=
  (pass.workflow.execute pass.time pass.budget pass.run pass.world).2.1

def exchanges (pass : Pass ω) : List (Exchange ω) :=
  pass.workflow.passExchanges pass.time pass.budget pass.run pass.world

def Returns (pass : Pass ω) : Prop :=
  pass.ending ≠ .panicked ∧ pass.ending ≠ .unfinished

instance (pass : Pass ω) : Decidable pass.Returns :=
  inferInstanceAs (Decidable (_ ∧ _))

end Pass

namespace Engine

variable {ω : Type}

def passes (engine : Engine ω) (now : Timestamp) (call : Call) (store : Store) (world : ω) :
    List (Pass ω) :=
  match engine.prepare now store call with
  | .ok (.drive workflow run) => [⟨call.runId, workflow, now, engine.config.budget, run, world⟩]
  | _ => []

def firePasses (engine : Engine ω) (now : Timestamp) :
    List DueTimer → Store → ω → List (Pass ω)
  | [], _, _ => []
  | timer :: rest, store, world =>
    let call := .resume timer.runId timer.resumeId none
    engine.passes now call store world ++
      let (ending, store, world) := engine.perform now call store world
      if ending.returned then engine.firePasses now rest store world else []

-- The passes that a call may make of a run that it loads.
inductive Drives (engine : Engine ω) (now : Timestamp) (loaded : Option Run) (call : Call) :
    Pass ω → Prop
  | intro {workflow : Workflow ω} {run : Run} (world : ω)
      (granted : engine.Grants now loaded call (.drive workflow run)) :
      Drives engine now loaded call
        ⟨call.runId, workflow, now, engine.config.budget, run, world⟩

variable {engine : Engine ω} {now : Timestamp} {store : Store} {world : ω} {call : Call}
  {runId : String} {pass : Pass ω}

theorem Drives.runId_eq {loaded : Option Run} (h : engine.Drives now loaded call pass) :
    pass.runId = call.runId := by
  cases h
  rfl

theorem mem_passes_call (h : pass ∈ engine.passes now call store world) :
    engine.Drives now (store.get? call.runId) call pass := by
  rw [passes] at h
  split at h
  case h_1 prepared =>
    cases List.mem_singleton.mp h
    exact .intro world (prepare_eq_ok_iff.mp prepared)
  case h_2 => cases h

theorem perform_returned (h : ∀ pass ∈ engine.passes now call store world, pass.Returns) :
    (engine.perform now call store world).1.returned := by
  rw [passes] at h
  rw [perform]
  rcases prepared : engine.prepare now store call with _ | ⟨workflow, run⟩ | _ | _
  case ok.drive =>
    simp only [prepared, List.forall_mem_singleton, Pass.Returns, Pass.ending] at h
    dsimp only
    generalize workflow.execute now engine.config.budget run world = passed at h ⊢
    obtain ⟨ending, after, world'⟩ := passed
    cases ending
    case panicked   => exact absurd rfl h.1
    case unfinished => exact absurd rfl h.2
    all_goals rfl
  all_goals rfl

-- Whatever is done to a store, one thing after another: calls and sweeps of the engines that share
-- it, and moves of the clock. Other than the steps of a `Course`, an act may be broken off by a
-- panic.
inductive Act (ω : Type)
  | call (engine : Engine ω) (call : Call)
  | sweep (engine : Engine ω)
  -- The clock may also be set back.
  | clock (clock : Instant)

inductive Act.Makes : Act ω → Engine ω → Call → Prop
  | call {engine : Engine ω} {call : Call} : Makes (.call engine call) engine call
  | sweep {engine : Engine ω} {runId id : String} :
    Makes (.sweep engine) engine (.resume runId id none)

namespace State

def act (s : State ω) : Act ω → State ω
  | .call engine call => s.after engine call
  | .sweep engine =>
    let (_, store, world) := engine.fireDueTimers s.now s.store s.world
    { s with store, world }
  | .clock clock => { s with clock }

def passes (s : State ω) : Act ω → List (Pass ω)
  | .call engine call => engine.passes s.now call s.store s.world
  | .sweep engine     => engine.firePasses s.now (s.store.listDue s.now) s.store s.world
  | .clock _          => []

def passesOf : State ω → List (Act ω) → List (Pass ω)
  | _, []          => []
  | s, act :: rest => s.passes act ++ (s.act act).passesOf rest

end State

-- What holds of a run, if there is one, holds of it still when a call has been made.
def Keeps (Q : Option Run → Prop) (engine : Engine ω) (call : Call) : Prop :=
  ∀ (now : Timestamp) (loaded : Option Run) (world : ω), Q loaded →
    Q ((engine.work now call loaded world).2.1.or loaded)

variable {Q : Option Run → Prop} {s : State ω} {act : Act ω} {acts : List (Act ω)}

theorem perform_keeps (kept : call.runId = runId → engine.Keeps Q call) (now : Timestamp)
    (world : ω) (h : Q (store.get? runId)) :
    Q ((engine.perform now call store world).2.1.get? runId) := by
  rw [perform_eq]
  by_cases addressed : call.runId = runId
  case pos =>
    subst addressed
    rw [Store.get?_commit_self]
    exact kept rfl now _ world h
  case neg => rwa [Store.get?_commit_of_ne addressed]

theorem fire_keeps (kept : ∀ id, engine.Keeps Q (.resume runId id none)) (now : Timestamp)
    (timers : List DueTimer) (count : Nat) (store : Store) (world : ω) (h : Q (store.get? runId)) :
    Q ((engine.fire now timers count store world).2.1.get? runId) ∧
      ∀ pass ∈ engine.firePasses now timers store world, pass.runId = runId →
        ∃ id loaded, Q loaded ∧ engine.Drives now loaded (.resume runId id none) pass := by
  induction timers generalizing count store world
  case nil => exact ⟨h, List.forall_mem_nil _⟩
  case cons timer rest ih =>
    let call := Call.resume timer.runId timer.resumeId none
    have kept_call (addressed : call.runId = runId) : engine.Keeps Q call := by
      subst addressed
      exact kept timer.resumeId
    have later := perform_keeps kept_call now world h
    rw [fire, firePasses]
    generalize hp : engine.perform now (.resume timer.runId timer.resumeId none) store world =
      performed at later
    obtain ⟨ending, store₁, world₁⟩ := performed
    have first (pass : Pass ω)
        (hm : pass ∈ engine.passes now (.resume timer.runId timer.resumeId none) store world)
        (hr : pass.runId = runId) :
        ∃ id loaded, Q loaded ∧ engine.Drives now loaded (.resume runId id none) pass := by
      have drives := mem_passes_call hm
      have addressed : timer.runId = runId := drives.runId_eq.symm.trans hr
      subst addressed
      exact ⟨timer.resumeId, _, h, drives⟩
    have ih (count : Nat) := ih count store₁ world₁ later
    refine ⟨?_, fun pass hm hr => ?_⟩
    · cases ending <;> dsimp only
      case panicked   => exact later
      case unfinished => exact later
      all_goals exact (ih _).1
    · rcases List.mem_append.mp hm with hm | hm
      · exact first pass hm hr
      · dsimp only at hm
        split at hm
        case isTrue  => exact (ih 0).2 pass hm hr
        case isFalse => cases hm

theorem act_keeps
    (kept : ∀ engine call, act.Makes engine call → call.runId = runId → engine.Keeps Q call)
    (h : Q (s.store.get? runId)) : Q ((s.act act).store.get? runId) := by
  cases act
  case call engine call => exact perform_keeps (kept engine call .call) s.now s.world h
  case sweep engine     =>
    exact (fire_keeps (fun _ => kept engine _ .sweep rfl) s.now _ 0 s.store s.world h).1
  case clock            => exact h

theorem mem_passes
    (kept : ∀ engine call, act.Makes engine call → call.runId = runId → engine.Keeps Q call)
    (h : Q (s.store.get? runId)) (hm : pass ∈ s.passes act) (hr : pass.runId = runId) :
    ∃ engine call loaded, act.Makes engine call ∧ call.runId = runId ∧ Q loaded ∧
      engine.Drives s.now loaded call pass := by
  cases act
  case call engine call =>
    have drives := mem_passes_call hm
    have addressed : call.runId = runId := drives.runId_eq.symm.trans hr
    subst addressed
    exact ⟨engine, call, _, .call, rfl, h, drives⟩
  case sweep engine =>
    have ⟨id, loaded, holds, drives⟩ :=
      (fire_keeps (fun _ => kept engine _ .sweep rfl) s.now _ 0 s.store s.world h).2 pass hm hr
    exact ⟨engine, _, loaded, .sweep, rfl, holds, drives⟩
  case clock => cases hm

theorem acts_keep
    (kept : ∀ act ∈ acts, ∀ engine call, act.Makes engine call → call.runId = runId →
      engine.Keeps Q call)
    (h : Q (s.store.get? runId)) : Q ((acts.foldl State.act s).store.get? runId) := by
  induction acts generalizing s
  case nil => exact h
  case cons act rest ih =>
    refine ih (fun act hm => kept act (List.mem_cons_of_mem _ hm)) ?_
    exact act_keeps (kept act List.mem_cons_self) h

-- A pass is made by a call, of a run for which all that is kept holds.
theorem mem_passesOf
    (kept : ∀ act ∈ acts, ∀ engine call, act.Makes engine call → call.runId = runId →
      engine.Keeps Q call)
    (h : Q (s.store.get? runId)) (hm : pass ∈ s.passesOf acts) (hr : pass.runId = runId) :
    ∃ act ∈ acts, ∃ engine call now loaded, act.Makes engine call ∧ call.runId = runId ∧ Q loaded ∧
      engine.Drives now loaded call pass := by
  induction acts generalizing s
  case nil => cases hm
  case cons act rest ih =>
    rcases List.mem_append.mp hm with hm | hm
    · have ⟨engine, call, loaded, makes, addressed, holds, drives⟩ :=
        mem_passes (kept act List.mem_cons_self) h hm hr
      exact ⟨act, List.mem_cons_self, engine, call, _, loaded, makes, addressed, holds, drives⟩
    · have ⟨other, hm, rest⟩ := ih (fun act hm => kept act (List.mem_cons_of_mem _ hm))
        (act_keeps (kept act List.mem_cons_self) h) hm
      exact ⟨other, List.mem_cons_of_mem _ hm, rest⟩

end Engine

end DurableWorkflow
