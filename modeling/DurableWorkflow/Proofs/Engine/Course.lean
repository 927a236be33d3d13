import DurableWorkflow.Proofs.Engine.Work

namespace DurableWorkflow.Engine

variable {ω : Type}

structure State (ω : Type) where
  store : Store
  world : ω
  clock : Instant

def State.now (s : State ω) : Timestamp :=
  s.clock.timestamp

inductive Step (engine : Engine ω) : State ω → State ω → Type
  | call {s : State ω} {ending : CallEnd} {store : Store} {world : ω} (call : Call)
      (performed : engine.perform s.now call s.store s.world = (ending, store, world))
      (returned  : ending.returned) : Step engine s { s with store, world }
  | sweep {s : State ω} {count : Nat} {store : Store} {world : ω}
      (fired : engine.fireDueTimers s.now s.store s.world = (.fired count, store, world)) :
      Step engine s { s with store, world }
  | clock {s : State ω} (clock : Instant) : Step engine s { s with clock }

-- What can happen to an engine and its store: calls, sweeps and moves of the clock in any order,
-- each of which came to its end.
inductive Course (engine : Engine ω) : State ω → State ω → Type
  | nil {s : State ω} : Course engine s s
  | cons {s₁ s₂ s₃ : State ω} (head : Step engine s₁ s₂) (tail : Course engine s₂ s₃) :
      Course engine s₁ s₃

variable {engine : Engine ω} {now : Timestamp} {store store' : Store} {world world' : ω}
  {call : Call} {ending : CallEnd} {runId : String} {run : Run} {s₁ s₂ : State ω}

def State.after (engine : Engine ω) (s : State ω) (call : Call) : State ω :=
  let (_, store, world) := engine.perform s.now call s.store s.world
  { s with store, world }

def returnsAll (engine : Engine ω) : List Call → State ω → Bool
  | [], _           => true
  | call :: rest, s =>
    (engine.perform s.now call s.store s.world).1.returned &&
      engine.returnsAll rest (s.after engine call)

def Course.ofCalls : (calls : List Call) → (s : State ω) → engine.returnsAll calls s →
    Course engine s (calls.foldl (State.after engine) s)
  | [], _, _        => .nil
  | call :: rest, _, h =>
    have h := Bool.and_eq_true_iff.mp h
    .cons (.call call rfl h.1) (ofCalls rest _ h.2)

def exchangesOf (engine : Engine ω) (runId : String) (now : Timestamp) (call : Call) (store : Store)
    (world : ω) : List (Exchange ω) :=
  if call.runId = runId then engine.exchanges now call (store.get? runId) world else []

def fireExchanges (engine : Engine ω) (runId : String) (now : Timestamp) :
    List DueTimer → Store → ω → List (Exchange ω)
  | [], _, _ => []
  | timer :: rest, store, world =>
    let call := .resume timer.runId timer.resumeId none
    engine.exchangesOf runId now call store world ++
      let (_, store, world) := engine.perform now call store world
      engine.fireExchanges runId now rest store world

def Step.exchanges (runId : String) : Step engine s₁ s₂ → List (Exchange ω)
  | .call call _ _ => engine.exchangesOf runId s₁.now call s₁.store s₁.world
  | .sweep _       => engine.fireExchanges runId s₁.now (s₁.store.listDue s₁.now) s₁.store s₁.world
  | .clock _       => []

def Course.exchanges (runId : String) {s₁ s₂ : State ω} : Course engine s₁ s₂ → List (Exchange ω)
  | .nil            => []
  | .cons head tail => head.exchanges runId ++ tail.exchanges runId

-- A sweep that comes to its end consists of calls that do.
theorem fire_induction {motive : List DueTimer → Store → ω → Store → ω → Prop}
    (nil : ∀ store world, motive [] store world store world)
    (cons : ∀ timer rest store world ending store₁ world₁ store₂ world₂,
      engine.perform now (.resume timer.runId timer.resumeId none) store world =
        (ending, store₁, world₁) → ending.returned → motive rest store₁ world₁ store₂ world₂ →
      motive (timer :: rest) store world store₂ world₂)
    {timers : List DueTimer} {before after : Nat}
    (h : engine.fire now timers before store world = (.fired after, store', world')) :
    motive timers store world store' world' := by
  induction timers generalizing before store world
  case nil =>
    cases h
    exact nil _ _
  case cons timer rest ih =>
    rw [fire] at h
    rcases hp : engine.perform now (.resume timer.runId timer.resumeId none) store world with
      ⟨ending, store₁, world₁⟩
    rw [hp] at h
    cases ending <;> simp only at h
    case panicked   => cases h
    case unfinished => cases h
    all_goals exact cons _ _ _ _ _ _ _ _ _ hp rfl (ih h)

theorem call_trail (performed : engine.perform now call store world = (ending, store', world'))
    (returned : ending.returned) (stored : store.get? runId = some run) :
    ∃ run', store'.get? runId = some run' ∧
      Trail run (engine.exchangesOf runId now call store world) run' := by
  obtain ⟨staged, work, rfl⟩ := perform_eq_iff.mp performed
  rw [exchangesOf]
  split
  case isTrue h =>
    subst h
    rw [stored] at work ⊢
    rw [Store.get?_commit_self, stored]
    cases staged
    case none =>
      rw [exchanges_eq_nil work returned]
      exact ⟨run, rfl, .refl run⟩
    case some run' =>
      have ⟨first, ho, trail⟩ := work_trail work
      refine ⟨run', rfl, ?_⟩
      cases call
      case run   => exact nomatch loaded_eq_none_of_run work
      all_goals cases ho; exact trail
  case isFalse h =>
    exact ⟨run, by rw [Store.get?_commit_of_ne h, stored], .refl run⟩

theorem fire_trail {timers : List DueTimer} {before after : Nat}
    (fired : engine.fire now timers before store world = (.fired after, store', world'))
    (stored : store.get? runId = some run) :
    ∃ run', store'.get? runId = some run' ∧
      Trail run (engine.fireExchanges runId now timers store world) run' := by
  refine fire_induction (motive := fun timers store world store' world' =>
    ∀ run, store.get? runId = some run → ∃ run', store'.get? runId = some run' ∧
      Trail run (engine.fireExchanges runId now timers store world) run')
    ?nil ?cons fired run stored
  case nil => exact fun _ _ run stored => ⟨run, stored, .refl run⟩
  case cons =>
    intro timer rest store world ending store₁ world₁ store₂ world₂ performed returned ih run stored
    have ⟨run₁, stored₁, trail₁⟩ := call_trail performed returned stored
    have ⟨run₂, stored₂, trail₂⟩ := ih run₁ stored₁
    refine ⟨run₂, stored₂, ?_⟩
    rw [fireExchanges, performed]
    exact trail₁.append trail₂

theorem Step.trail (e : Step engine s₁ s₂) (stored : s₁.store.get? runId = some run) :
    ∃ run', s₂.store.get? runId = some run' ∧ Trail run (e.exchanges runId) run' := by
  cases e
  case call performed returned => exact call_trail performed returned stored
  case sweep fired             => exact fire_trail fired stored
  case clock                   => exact ⟨run, stored, .refl run⟩

theorem Course.trail {s₁ s₂ : State ω} (c : Course engine s₁ s₂)
    (stored : s₁.store.get? runId = some run) :
    ∃ run', s₂.store.get? runId = some run' ∧ Trail run (c.exchanges runId) run' := by
  induction c generalizing run
  case nil => exact ⟨run, stored, .refl run⟩
  case cons head tail ih =>
    have ⟨run₁, stored₁, trail₁⟩ := head.trail stored
    have ⟨run₂, stored₂, trail₂⟩ := ih stored₁
    exact ⟨run₂, stored₂, trail₁.append trail₂⟩

section Invariant

-- What every call on a run preserves holds of the stored run all along.
variable {P : Run → Prop}
  (preserved : ∀ {now call run run' world ending world'}, call.runId = runId → P run →
    engine.work now call (some run) world = (ending, some run', world') → P run')

include preserved

theorem call_invariant (performed : engine.perform now call store world = (ending, store', world'))
    (h : ∃ run, store.get? runId = some run ∧ P run) :
    ∃ run, store'.get? runId = some run ∧ P run := by
  obtain ⟨staged, work, rfl⟩ := perform_eq_iff.mp performed
  by_cases addressed : call.runId = runId
  case neg => rwa [Store.get?_commit_of_ne addressed]
  case pos =>
    have ⟨run, stored, holds⟩ := h
    subst addressed
    rw [stored] at work
    rw [Store.get?_commit_self, stored]
    cases staged
    case none      => exact ⟨run, rfl, holds⟩
    case some run' => exact ⟨run', rfl, preserved rfl holds work⟩

theorem Step.invariant (e : Step engine s₁ s₂) (h : ∃ run, s₁.store.get? runId = some run ∧ P run) :
    ∃ run, s₂.store.get? runId = some run ∧ P run := by
  cases e
  case call performed _ => exact call_invariant preserved performed h
  case sweep fired =>
    refine fire_induction (motive := fun _ store _ store' _ =>
      (∃ run, store.get? runId = some run ∧ P run) → ∃ run, store'.get? runId = some run ∧ P run)
      ?nil ?cons fired h
    case nil  => exact fun _ _ => id
    case cons =>
      intro _ _ _ _ _ _ _ _ _ performed _ ih h
      exact ih (call_invariant preserved performed h)
  case clock => exact h

theorem Course.invariant {s₁ s₂ : State ω} (c : Course engine s₁ s₂)
    (h : ∃ run, s₁.store.get? runId = some run ∧ P run) :
    ∃ run, s₂.store.get? runId = some run ∧ P run := by
  induction c
  case nil               => exact h
  case cons head tail ih => exact ih (head.invariant preserved h)

end Invariant

-- The life of a run up to a state: its start, and the course from there on.
structure Life (engine : Engine ω) (runId : String) (initial : Run) (s : State ω) where
  before  : State ω
  result  : RunResult
  store   : Store
  world   : ω
  started : engine.perform before.now (.run runId initial) before.store before.world =
    (.passed result, store, world)
  course  : Course engine { before with store, world } s

namespace Life

variable {initial : Run} {s : State ω}

def ofCalls (before : State ω) (calls : List Call)
    (passed :
      (engine.perform before.now (.run runId initial) before.store before.world).1.result?.isSome)
    (returned : engine.returnsAll calls (before.after engine (.run runId initial))) :
    Life engine runId initial
      (calls.foldl (State.after engine) (before.after engine (.run runId initial))) where
  before
  result  := Option.get _ passed
  store   := (before.after engine (.run runId initial)).store
  world   := (before.after engine (.run runId initial)).world
  started := Prod.ext (CallEnd.eq_passed passed) rfl
  course  := .ofCalls calls _ returned

def exchanges (life : Life engine runId initial s) : List (Exchange ω) :=
  engine.exchanges life.before.now (.run runId initial) none life.before.world ++
    life.course.exchanges runId

theorem start_trail {result : RunResult}
    (started :
      engine.perform now (.run runId initial) store world = (.passed result, store', world')) :
    ∃ run, store'.get? runId = some run ∧
      Trail (engine.opened runId initial)
        (engine.exchanges now (.run runId initial) none world) run := by
  obtain ⟨staged, work, rfl⟩ := perform_eq_iff.mp started
  obtain ⟨run, rfl⟩ := exists_staged_of_passed work
  have ⟨first, ho, trail⟩ := work_trail work
  cases ho
  rw [loaded_eq_none_of_run work] at trail
  exact ⟨run, by simp only [Call.runId, Store.get?_commit_self, Option.some_or], trail⟩

theorem trail (life : Life engine runId initial s) :
    ∃ run, s.store.get? runId = some run ∧
      Trail (engine.opened runId initial) life.exchanges run := by
  have ⟨first, stored, trail₁⟩ := start_trail life.started
  have ⟨run, stored, trail₂⟩ := life.course.trail stored
  exact ⟨run, stored, trail₁.append trail₂⟩

end Life

end DurableWorkflow.Engine
