import DurableWorkflow.Proofs.Concurrency.Serial
import DurableWorkflow.Proofs.Run.Delivery

namespace DurableWorkflow

namespace Run

def expectedIn (id : String) (run : Option Run) : Nat :=
  run.elim 0 (expected id)

end Run

def Call.brought : Call → List ResumeEntry
  | .run _ initial                    => initial.pending
  | .resume .. | .retry _ | .cancel _ => []

theorem Engine.expected_origin {ω : Type} {engine : Engine ω} {loaded : Option Run} {call : Call}
    {run : Run} {id : String} (h : engine.origin loaded call = some run) :
    run.expected id ≤
      Run.expectedIn id loaded + call.brought.countP (ResumeEntry.expects id) := by
  cases call with
  | run runId initial =>
    cases h
    rw [opened, Run.keepAuditLog]
    split <;> exact Nat.le_add_left _ _
  | resume | retry | cancel =>
    cases h
    exact Nat.le_refl _

def Engine.missing {ω : Type} (engine : Engine ω) (run : Run) (id : String) : Error :=
  match engine.workflow run.workflowType with
  | .ok _        => .unknownResume run.name id
  | .error error => error

namespace Deed

variable {ω : Type} (engine : Engine ω) (deed : Deed ω)

def occasion : Timestamp × ω × Call :=
  (deed.drive.now, deed.drive.world, deed.call)

def result : CallEnd × ω :=
  ((deed.outcome engine).1, (deed.outcome engine).2.2)

def exchanges : List (Exchange ω) :=
  if (deed.staged engine).isSome then
    engine.exchanges deed.drive.now deed.call deed.drive.loaded deed.drive.world
  else []

def brought : List ResumeEntry :=
  if (deed.staged engine).isSome then deed.call.brought else []

theorem expected_left (id : String) :
    Run.expectedIn id (deed.left engine) + (deed.exchanges engine).countP (·.delivers id) ≤
      Run.expectedIn id deed.drive.loaded + (deed.exchanges engine).countP (·.registers id) +
        (deed.brought engine).countP (ResumeEntry.expects id) := by
  rw [left, exchanges, brought]
  cases hs : deed.staged engine
  case none => simp
  case some run =>
    have ⟨begun, ho, trail⟩ := Engine.work_trail (Prod.ext rfl (Prod.ext hs rfl))
    have opened : begun.expected id ≤ _ + _ := Engine.expected_origin ho
    have accounted : run.expected id + _ ≤ _ := trail.expected_le
    simp only [Option.isSome_some, if_true, Option.some_or, Run.expectedIn, Option.elim_some] at *
    omega

variable {engine} {id : String}

theorem outcome_of_expecting {runId : String} {payload : Option Json} {drive : Drive ω} {run : Run}
    {entry : ResumeEntry} {workflow : Workflow ω} (loaded : drive.loaded = some run)
    (live : run.status.isClosed = false) (known : engine.workflow run.workflowType = .ok workflow)
    (found : run.pending.find? (ResumeEntry.awaits id) = some entry) (event : entry.isEvent) :
    outcome engine ⟨.resume runId id payload, drive⟩ =
      let (ending, after, world) :=
        workflow.execute drive.now engine.config.budget (run.deliver id payload) drive.world
      let (ending, staged) := Engine.stage after ending
      (ending, staged, world) := by
  have resolved : run.resolve drive.now id payload = (.ok true, run.deliver id payload) := by
    rw [Run.resolve, found]
    cases entry
    case timer => cases event
    case event => rfl
  exact Engine.work_of_drive (.resume loaded known resolved live)

theorem outcome_of_missing {runId : String} {payload : Option Json} {drive : Drive ω} {run : Run}
    (loaded : drive.loaded = some run)
    (missing : run.pending.find? (ResumeEntry.awaits id) = none) :
    outcome engine ⟨.resume runId id payload, drive⟩ =
      (.refused (engine.missing run id), none, drive.world) := by
  refine Engine.work_of_refused ?_
  rw [loaded]
  cases known : engine.workflow run.workflowType <;>
    simp [Engine.prepare, Engine.stored_only, Call.runId, known, Engine.missing, Run.resolve,
      missing, bind, Except.bind]

end Deed

namespace Traffic

variable {ω : Type} {engine : Engine ω} {first : Store} {s : Traffic ω}

theorem performAll_of_chains {deeds : List (Deed ω)} {store last : Store}
    (h : ∀ runId, Chain engine (store.get? runId) (deeds.filter (·.call.runId = runId))
      (last.get? runId)) :
    engine.performAll (deeds.map Deed.occasion) store = (deeds.map (·.result engine), last) := by
  induction deeds generalizing store with
  | nil =>
    rw [show store = last from Dict.ext_get? h]
    rfl
  | cons deed rest ih =>
    have here := h deed.call.runId
    rw [List.filter_cons_of_pos (by simp)] at here
    have ⟨loaded, tail⟩ := here
    have ih : engine.performAll _ (store.commit deed.call.runId (deed.staged engine)) = _ :=
      ih fun runId => by
        by_cases hr : deed.call.runId = runId
        case pos =>
          subst hr
          rw [Store.get?_commit_self, ← loaded]
          exact tail
        case neg =>
          rw [Store.get?_commit_of_ne hr]
          have := h runId
          rwa [List.filter_cons_of_neg (by simp [hr])] at this
    rw [List.map_cons, Deed.occasion, Engine.performAll, Engine.perform_eq, ← loaded]
    exact congrArg (fun later => (deed.result engine :: later.1, later.2)) ih

theorem filter_deeds (s : Traffic ω) (runId : String) (order : List TaskId) :
    (order.filterMap s.deed?).filter (·.call.runId = runId) =
      (order.filter (s.addresses runId)).filterMap s.deed? := by
  rw [List.filter_filterMap, List.filterMap_filter]
  refine List.filterMap_congr fun task _ => ?_
  rcases ht : s.tasks task with _ | ⟨call, standing⟩
  case none => simp [deed?, addresses, ht]
  case some =>
    rw [addresses_of_at ht, deed?_of_at ht]
    cases standing.drive? <;> simp [Option.filter]

theorem Orderly.performAll_eq (h : s.Orderly engine first) {order : List TaskId}
    (inLine : ∀ runId, order.filter (s.addresses runId) = s.line runId) :
    let deeds := order.filterMap s.deed?
    engine.performAll (deeds.map Deed.occasion) first = (deeds.map (·.result engine), s.store) :=
  performAll_of_chains fun runId => by
    rw [filter_deeds, inLine]
    exact h.chained runId

theorem Chain.expected_le {id : String} {deeds : List (Deed ω)} {run last : Option Run}
    (h : Chain engine run deeds last) :
    Run.expectedIn id last + (deeds.flatMap (·.exchanges engine)).countP (·.delivers id) ≤
      Run.expectedIn id run + (deeds.flatMap (·.exchanges engine)).countP (·.registers id) +
        (deeds.flatMap (·.brought engine)).countP (ResumeEntry.expects id) := by
  induction deeds generalizing run with
  | nil => cases h; simp
  | cons deed rest ih =>
    have later := ih h.2
    have now := deed.expected_left engine id
    rw [h.1] at now
    simp only [List.flatMap_cons, List.countP_append]
    omega

-- Whatever the order in which calls take their steps, they come to what they come to one after
-- another, and so do resumes that compete for one entry.
structure Serializable (engine : Engine ω) (first : Store) (s : Traffic ω) : Prop where
  -- The lock objects that tasks refer to come to the same as one lock for each run.
  shared : s.vault.Keeps s.locks
  exclusive : ∀ {task other call call' standing standing'},
    s.At task call standing → standing.isOpen → s.At other call' standing' → standing'.isOpen →
      call.runId = call'.runId → task = other
  current : ∀ {task call standing run}, s.At task call standing → standing.snapshot? = some run →
    run = s.store.get? call.runId
  -- The deeds come to what their calls come to one after another, in every order in which those on
  -- one run are as its lock was obtained.
  serial : ∀ {order : List TaskId}, (∀ runId, order.filter (s.addresses runId) = s.line runId) →
    let deeds := order.filterMap s.deed?
    engine.performAll (deeds.map Deed.occasion) first = (deeds.map (·.result engine), s.store)
  -- A call that is refused before it asks for a lock is refused at all times.
  refused : ∀ {task call error}, s.At task call (.refused error) →
    ∀ now store world, engine.perform now call store world = (.refused error, store, world)
  -- No deed is lost: each loads what the one before it on the run left, and what the last one left
  -- is stored.
  chained : ∀ runId, Chain engine (first.get? runId) (s.history runId) (s.store.get? runId)
  commuting : ∀ {now now' : Timestamp} {world world' : ω} {call call' : Call},
    call.runId ≠ call'.runId → ∀ store,
      let (ends, after) := engine.performAll [(now, world, call), (now', world', call')] store
      engine.performAll [(now', world', call'), (now, world, call)] store = (ends.reverse, after)
  -- Of the resumes of an event, the first one delivers its payload.
  delivered : ∀ {runId id run entry workflow payload drive later},
    first.get? runId = some run → run.status.isClosed = false →
    engine.workflow run.workflowType = .ok workflow →
    run.pending.find? (ResumeEntry.awaits id) = some entry → entry.isEvent →
    s.history runId = ⟨.resume runId id payload, drive⟩ :: later →
      Deed.outcome engine ⟨.resume runId id payload, drive⟩ =
        let (ending, after, world) :=
          workflow.execute drive.now engine.config.budget (run.deliver id payload) drive.world
        let (ending, staged) := Engine.stage after ending
        (ending, staged, world)
  -- There are no more deliveries under an id than there are entries that were registered under it.
  atMostOnce : ∀ runId id,
    let exchanges := (s.history runId).flatMap (·.exchanges engine)
    Run.expectedIn id (s.store.get? runId) + exchanges.countP (·.delivers id) ≤
      Run.expectedIn id (first.get? runId) + exchanges.countP (·.registers id) +
        ((s.history runId).flatMap (·.brought engine)).countP (ResumeEntry.expects id)
  -- An event that has its payload keeps it.
  kept : ∀ {runId exchange i entry},
    exchange ∈ (s.history runId).flatMap (·.exchanges engine) →
      exchange.run.Delivered i entry → exchange.after.Delivered i entry
  missed : ∀ {task runId id payload standing drive run},
    s.At task (.resume runId id payload) standing → standing.drive? = some drive →
    drive.loaded = some run → run.pending.find? (ResumeEntry.awaits id) = none →
      Deed.outcome engine ⟨.resume runId id payload, drive⟩ =
        (.refused (engine.missing run id), none, drive.world)

theorem Reaches.serializable (reached : Reaches engine first s) : s.Serializable engine first where
  shared := reached.orderly.keeps
  exclusive h₁ open₁ h₂ open₂ := reached.orderly.owned.unique h₁ open₁ h₂ open₂
  current holds snapshot := reached.orderly.current holds snapshot
  serial := reached.orderly.performAll_eq
  refused h _ _ _ := Engine.perform_of_refusal (reached.orderly.founded h)
  chained := reached.orderly.chained
  commuting := Engine.performAll_swap
  delivered {runId} _ _ _ _ _ _ _ stored live known found event hs := by
    have chained := reached.orderly.chained runId
    rw [hs] at chained
    exact Deed.outcome_of_expecting (chained.1.trans stored) live known found event
  atMostOnce runId _ := (reached.orderly.chained runId).expected_le
  kept {_ exchange _ _} _ h := exchange.delivered_after h
  missed _ _ := Deed.outcome_of_missing

end Traffic

namespace Traffic.Doorbell

def wait : HandlerM Nat StepOutcome := do
  match ← HandlerM.waitEvent "ring" .null with
  | .event _ _ (some payload) => HandlerM.putState payload; return .done
  | entry                     => return .suspend entry

def office : Engine Nat :=
  ⟨.ofPairs [("door", ⟨"door", "wait", .null, .ofPairs [("wait", wait)]⟩)], .standard⟩

def waiting : Run :=
  { Run.create "door" "wait" with
    id      := some "r"
    status  := .suspended
    pending := [.event "wait:ring" .null none] }

def first : Store :=
  .only "r" (some waiting)

def noon : Timestamp :=
  Instant.epoch.timestamp

def ring (n : Nat) : Call :=
  .resume "r" "wait:ring" (some (.nat n))

theorem rung_once :
    ∃ s, Reaches office first s ∧ (s.history "r").map Deed.call = [ring 1, ring 2] ∧
      s.Serializable office first := by
  have r₁ := Reaches.start.step (@Step.make _ office (.start first) 1 (ring 1) rfl rfl rfl)
  have r₂ := r₁.step (@Step.find _ _ _ 2 (ring 2) 0 rfl rfl rfl)
  have r₃ := r₂.step (@Step.ask _ _ _ 1 (ring 1) 0 rfl (by decide))
  have r₄ := r₃.step (@Step.ask _ _ _ 2 (ring 2) 0 rfl (by decide))
  have r₅ := r₄.step (@Step.obtain _ _ _ 1 (ring 1) 0 rfl (by decide) rfl)
  have r₆ := r₅.step (@Step.load _ _ _ 1 (ring 1) rfl)
  have r₇ := r₆.step (@Step.drive _ _ _ 1 (ring 1) _ noon 0 rfl)
  have r₈ := r₇.step (@Step.store _ _ _ 1 (ring 1) _ _ rfl
    (Option.some_get (by decide +kernel)).symm)
  have r₉ := r₈.step (@Step.close _ _ _ 1 (ring 1) _ _ 0 rfl (by decide) .stored)
  have r₁₀ := r₉.step (@Step.obtain _ _ _ 2 (ring 2) 0 rfl (by decide) rfl)
  have r₁₁ := r₁₀.step (@Step.load _ _ _ 2 (ring 2) rfl)
  have r₁₂ := r₁₁.step (@Step.drive _ _ _ 2 (ring 2) _ noon 0 rfl)
  have r₁₃ := r₁₂.step (@Step.close _ _ _ 2 (ring 2) _ _ 0 rfl (by decide)
    (.settled (Option.isNone_iff_eq_none.mp (by decide +kernel))))
  exact ⟨_, r₁₃, rfl, r₁₃.serializable⟩

end Traffic.Doorbell

end DurableWorkflow
