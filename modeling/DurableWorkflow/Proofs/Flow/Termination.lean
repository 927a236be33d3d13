import DurableWorkflow.Proofs.Engine.Lifecycle
import DurableWorkflow.Proofs.Flow.Acyclic
import DurableWorkflow.Proofs.Flow.Effects

namespace DurableWorkflow

theorem nodup_of_falls {α : Type} {measure : α → Nat} {list : List α}
    (falls : list.Pairwise (measure · > measure ·)) : list.Nodup :=
  falls.imp fun lower same => absurd (same ▸ lower) (Nat.lt_irrefl _)

namespace Event

variable {ω : Type}

def left? : Event ω → Option String
  | .leave run _ => some run.currentStep
  | .exchange _  => none

def stepsLeft (history : List (Event ω)) : List String :=
  history.filterMap left?

@[simp]
theorem stepsLeft_exchange {made : Exchange ω} {rest : List (Event ω)} :
    stepsLeft (.exchange made :: rest) = stepsLeft rest :=
  rfl

@[simp]
theorem stepsLeft_leave {run : Run} {next : Option String} {rest : List (Event ω)} :
    stepsLeft (.leave run next :: rest) = run.currentStep :: stepsLeft rest :=
  rfl

theorem eq_of_advance {run last : Run} {next : String}
    {result : Outcome (Except Error StepOutcome)}
    (h : (.leave last (some next) : Event ω) ∈ atEnd run result) :
    last = run ∧ result = .returned (.ok (.advance next)) := by
  rcases result with (_ | _ | _ | _) | _
  case returned.ok.advance =>
    cases List.mem_singleton.mp h
    exact ⟨rfl, rfl⟩
  case returned.ok.done => cases List.mem_singleton.mp h
  all_goals cases h

end Event

theorem Workflow.exists_advance {ω : Type} {workflow : Workflow ω} {now : Timestamp} {run last : Run}
    {world : ω} {next : String} (h : .leave last (some next) ∈ workflow.stepEvents now run world) :
    ∃ handler, workflow.handler? last.currentStep = some handler ∧
      (Script.run now handler.run run world).1 = .returned (.ok (.advance next)) := by
  have ⟨live, served⟩ := served_of_mem_stepEvents h
  have ⟨handler, known⟩ := exists_handler h
  rw [stepEvents_of_handler live known] at h
  rcases List.mem_append.mp h with h | h
  · obtain ⟨_, _, ⟨⟩⟩ := List.mem_map.mp h
  · exact ⟨handler, served.currentStep ▸ known, (Event.eq_of_advance h).2⟩

-- By induction on the chronicle: what falls whenever a step is left for another one falls along all
-- steps that are left. A step that is left for good is the last one, for the run is closed then.
theorem Chronicle.falls {ω : Type} {first last : Run} {history : List (Event ω)}
    (measure : String → Nat) (chronicle : Chronicle first history last)
    (falls : ∀ run next, .leave run (some next) ∈ history → measure next < measure run.currentStep)
    (live : ∀ event ∈ history, event.run.status.isClosed = false) :
    (Event.stepsLeft history).Pairwise (measure · > measure ·) ∧
      ∀ id ∈ Event.stepsLeft history,
        first.status.isClosed = false ∧ measure id ≤ measure first.currentStep := by
  induction chronicle
  case nil => exact ⟨.nil, List.forall_mem_nil _⟩
  case cons first last event rest held tail ih =>
    have ⟨here, later⟩ := List.forall_mem_cons.mp live
    have ⟨sorted, below⟩ :=
      ih (fun run next hm => falls run next (List.mem_cons_of_mem _ hm)) later
    have begun : first.status.isClosed = false := held.live here
    cases event with
    | exchange made =>
      have stays : made.after.currentStep = first.currentStep :=
        made.request.answer_served.currentStep.trans held.currentStep
      rw [Event.stepsLeft_exchange, ← stays]
      exact ⟨sorted, fun id hm => ⟨begun, (below id hm).2⟩⟩
    | leave run next =>
      have stays : run.currentStep = first.currentStep := held.currentStep
      rw [Event.stepsLeft_leave, ← stays, List.pairwise_cons, List.forall_mem_cons]
      cases next with
      | none =>
        have ended (id : String) (hm : id ∈ Event.stepsLeft rest) : False := nomatch (below id hm).1
        exact ⟨⟨fun id hm => (ended id hm).elim, sorted⟩, ⟨begun, Nat.le_refl _⟩,
          fun id hm => (ended id hm).elim⟩
      | some next =>
        have lower (id : String) (hm : id ∈ Event.stepsLeft rest) :
            measure id < measure run.currentStep :=
          Nat.lt_of_le_of_lt (below id hm).2 (falls run next List.mem_cons_self)
        exact ⟨⟨lower, sorted⟩, ⟨begun, Nat.le_refl _⟩,
          fun id hm => ⟨begun, Nat.le_of_lt (lower id hm)⟩⟩

def Budget.Follows (handlers : Nat) : Budget → Prop
  | .limited _      => True
  | .unlimited fuel => handlers ≤ fuel

namespace Flow

variable {ω : Type} {flow : Flow} {tasks : Dict (StepTask ω)} {workflow : Workflow ω}
  {now : Timestamp} {run after : Run} {world world' : ω} {n : Nat} {ending : PassEnd}

structure Ends (flow : Flow) (tasks : Dict (StepTask ω)) (ending : PassEnd) : Prop where
  finished : ending ≠ .unfinished
  within   : ending.exceeded = false
  steady   : flow.Steady tasks → ending ≠ .panicked

structure PassWithin (flow : Flow) (tasks : Dict (StepTask ω)) (workflow : Workflow ω)
    (now : Timestamp) (run : Run) (world : ω) : Prop where
  calls : ∀ budget, (workflow.handlings now budget run world).length ≤ flow.steps.length
  once  : ∀ budget, ((workflow.handlings now budget run world).map (·.run.currentStep)).Nodup
  -- All budgets that admit as many handlers as there are steps come to the same.
  ends  : ∃ ending after world', flow.Ends tasks ending ∧ ∀ budget : Budget,
    flow.steps.length ≤ budget.rounds →
      workflow.execute now budget run world = (ending, after, world')
  -- Nothing is lost of a pass whose tasks return, even if it exceeds its limit.
  kept : flow.Steady tasks → ∀ budget : Budget, budget.Follows flow.steps.length →
    ∀ ending after world', workflow.execute now budget run world = (ending, after, world') →
      (Engine.stage after ending).2 = some after

theorem Ends.staged (h : flow.Ends tasks ending) (steady : flow.Steady tasks) (run : Run) :
    (Engine.stage run ending).2 = some run := by
  cases ending
  case panicked   => exact absurd rfl (h.steady steady)
  case unfinished => exact absurd rfl h.finished
  all_goals rfl

section Compiled

variable (compiled : Workflow.ofFlow flow tasks = .returned (.ok workflow))

include compiled

theorem moves_of_round (h : workflow.round now run world = (none, after, world')) :
    flow.Moves run.currentStep after.currentStep := by
  have ⟨⟨handler, entered, advances⟩, _⟩ := Workflow.round_onwards h
  exact Workflow.moves_of_advance compiled (Workflow.handler?_of_enter entered) advances

theorem ends_of_march
    (h : workflow.march now n run world = (some ending, after, world')) :
    flow.Ends tasks ending := by
  have within := Workflow.march_modest (Workflow.ofFlow_modest compiled now) h
  have ⟨run, world, round⟩ := Workflow.exists_round_of_march h
  rw [Workflow.round] at round
  cases entered : workflow.enter run <;> simp only [entered] at round
  case error =>
    cases round
    exact ⟨by rintro ⟨⟩, within, by rintro _ ⟨⟩⟩
  case ok handler =>
    obtain ⟨step, hm, _, comes⟩ :=
      Workflow.exists_comes compiled (Workflow.handler?_of_enter entered) now run world
    rw [Handler.round] at round
    rcases ran : Script.run now handler.run run world with ⟨result, last, world₁⟩
    simp only [ran] at round comes
    cases comes <;> cases round
    case panics breaks =>
      exact ⟨by rintro ⟨⟩, within, fun steady => absurd breaks (steady step hm)⟩
    all_goals exact ⟨by rintro ⟨⟩, within, by rintro _ ⟨⟩⟩

variable (acyclic : flow.Acyclic)

include acyclic

theorem rank_of_round (h : workflow.round now run world = (none, after, world')) :
    flow.rank after.currentStep < flow.rank run.currentStep :=
  rank_lt acyclic (Workflow.ofFlow_compiles compiled).wellFormed (moves_of_round compiled h)

-- By induction on the rounds, each of which ends the pass or goes down in rank.
theorem exists_march_end (now : Timestamp) (run : Run) (world : ω)
    (below : flow.rank run.currentStep < n) :
    ∃ ending after world', workflow.march now n run world = (some ending, after, world') := by
  induction n generalizing run world
  case zero => cases below
  case succ n ih =>
    rcases round : workflow.round now run world with ⟨_ | ending, next, world₁⟩
    case some => exact ⟨ending, next, world₁, by rw [Workflow.march, round]⟩
    case none =>
      have lower := rank_of_round compiled acyclic round
      obtain ⟨ending, after, world', march⟩ :=
        ih next world₁ (Nat.lt_of_lt_of_le lower (Nat.le_of_lt_succ below))
      refine ⟨ending, after, world', ?_⟩
      rw [Workflow.march, round]
      exact march

theorem marchHandlings_falls (now : Timestamp) (n : Nat) (run : Run) (world : ω) :
    ((workflow.marchHandlings now n run world).map (·.run.currentStep)).Pairwise
        (flow.rank · > flow.rank ·) ∧
      ∀ id ∈ (workflow.marchHandlings now n run world).map (·.run.currentStep),
        id ∈ flow.stepIds ∧ flow.rank id ≤ flow.rank run.currentStep := by
  induction n generalizing run world
  case zero => exact ⟨.nil, List.forall_mem_nil _⟩
  case succ n ih =>
    rw [Workflow.marchHandlings]
    cases entered : workflow.enter run
    case error => exact ⟨.nil, List.forall_mem_nil _⟩
    case ok handler =>
      have known : run.currentStep ∈ flow.stepIds := by
        obtain ⟨_, hm, same⟩ :=
          Workflow.exists_step_of_ofFlow compiled (Workflow.handler?_of_enter entered)
        exact same ▸ List.mem_map_of_mem hm
      dsimp only
      rw [List.map_cons, List.pairwise_cons, List.forall_mem_cons]
      rcases round : workflow.round now run world with ⟨_ | ending, next, world₁⟩
      case some =>
        exact ⟨⟨List.forall_mem_nil _, .nil⟩, ⟨known, Nat.le_refl _⟩, List.forall_mem_nil _⟩
      case none =>
        have lower := rank_of_round compiled acyclic round
        obtain ⟨sorted, below⟩ := ih next world₁
        refine ⟨⟨fun id hm => ?_, sorted⟩, ⟨known, Nat.le_refl _⟩, fun id hm => ?_⟩
        · exact Nat.lt_of_le_of_lt (below id hm).2 lower
        · obtain ⟨known, below⟩ := below id hm
          exact ⟨known, Nat.le_trans below (Nat.le_of_lt lower)⟩

theorem handlings_once (now : Timestamp) (budget : Budget) (run : Run) (world : ω) :
    ((workflow.handlings now budget run world).map (·.run.currentStep)).Nodup ∧
      (workflow.handlings now budget run world).map (·.run.currentStep) ⊆ flow.stepIds := by
  rw [Workflow.handlings]
  split
  case isTrue  => exact ⟨List.nodup_nil, List.nil_subset _⟩
  case isFalse =>
    obtain ⟨falls, known⟩ :=
      marchHandlings_falls compiled acyclic now budget.rounds run.launch world
    exact ⟨nodup_of_falls falls, fun id hm => (known id hm).1⟩

theorem staged_of_execute (steady : flow.Steady tasks) (live : run.status.isClosed = false)
    {budget : Budget} (follows : budget.Follows flow.steps.length)
    (h : workflow.execute now budget run world = (ending, after, world')) :
    (Engine.stage after ending).2 = some after := by
  rcases march : workflow.march now budget.rounds run.launch world with ⟨_ | ended, last, world₁⟩
  case some =>
    rw [Workflow.execute_of_march_end budget live (Nat.le_refl _) march] at h
    cases h
    exact (ends_of_march compiled march).staged steady _
  case none =>
    rw [Workflow.execute_of_march budget live march] at h
    cases budget
    case limited =>
      cases h
      rfl
    case unlimited fuel =>
      have wellFormed := (Workflow.ofFlow_compiles compiled).wellFormed
      have below := rank_lt_length acyclic wellFormed run.launch.currentStep
      have ⟨_, _, _, ended⟩ := exists_march_end compiled acyclic now run.launch world
        (Nat.lt_of_lt_of_le below follows)
      cases march.symm.trans ended

theorem pass_within (now : Timestamp) (run : Run) (world : ω) :
    flow.PassWithin tasks workflow now run world where
  calls budget := by
    have ⟨once, known⟩ := handlings_once compiled acyclic now budget run world
    have within := (List.subperm_of_subset once known).length_le
    rwa [List.length_map, stepIds, List.length_map] at within
  once budget := (handlings_once compiled acyclic now budget run world).1
  ends := by
    have wellFormed := (Workflow.ofFlow_compiles compiled).wellFormed
    cases live : run.status.isClosed
    case true =>
      exact ⟨.failed run.closedError, run, world, ⟨nofun, rfl, fun _ => nofun⟩,
        fun _ _ => Workflow.execute_of_closed live⟩
    case false =>
      have ⟨ending, after, world', march⟩ := exists_march_end compiled acyclic now run.launch world
        (rank_lt_length acyclic wellFormed run.launch.currentStep)
      exact ⟨ending, after, world', ends_of_march compiled march,
        fun budget enough => Workflow.execute_of_march_end budget live enough march⟩
  kept steady budget follows ending after world' h := by
    cases live : run.status.isClosed
    case false => exact staged_of_execute compiled acyclic steady live follows h
    case true =>
      rw [Workflow.execute_of_closed live] at h
      cases h
      rfl

end Compiled

end Flow

namespace Engine

variable {ω : Type} {engine : Engine ω} {flow : Flow} {tasks : Dict (StepTask ω)}
  {workflow : Workflow ω} {first : State ω} {runId : String} {call : Call} {loaded : Option Run}
  {now : Timestamp} {pass : Pass ω} {happenings : List (Happening ω)} {event : Event ω}

def OfType (workflowType : String) (loaded : Option Run) : Prop :=
  ∀ run, loaded = some run → run.workflowType = workflowType

theorem opened_workflowType {initial : Run} :
    (engine.opened runId initial).workflowType = initial.workflowType := by
  rw [opened, Run.keepAuditLog]
  split <;> rfl

theorem keeps_ofType (made : call.Instantiates workflow) :
    engine.Keeps (OfType workflow.workflowType) call := by
  intro now loaded world ofType
  rcases work : engine.work now call loaded world with ⟨ending, _ | last, world'⟩
  case none => exact ofType
  case some =>
    rintro _ ⟨⟩
    have ⟨begun, origin, trail⟩ := work_trail work
    refine trail.workflowType.trans ?_
    cases call with
    | run =>
      cases origin
      obtain ⟨state, rfl⟩ := made
      exact opened_workflowType
    | resume | retry | cancel => exact ofType begun origin

theorem OfType.drives (registered : engine.workflows.get? workflow.workflowType = some workflow)
    (made : call.Instantiates workflow) (ofType : OfType workflow.workflowType loaded)
    (drives : engine.Drives now loaded call pass) : pass.workflow = workflow := by
  have only {other : Workflow ω} {run : Run} (stored : run.workflowType = workflow.workflowType)
      (known : engine.workflow run.workflowType = .ok other) : other = workflow := by
    rw [stored, Engine.workflow, registered] at known
    cases known
    rfl
  cases drives with | intro world granted => ?_
  cases granted with
  | run _ known =>
    obtain ⟨state, rfl⟩ := made
    exact only rfl known
  | resume stored known | retry stored _ known => exact only (ofType _ stored) known

theorem moves_of_mem_history (compiled : Workflow.ofFlow flow tasks = .returned (.ok workflow))
    (ofType : OfType flow.id (first.store.get? runId))
    (made : ∀ happening ∈ happenings, ∀ engine call, happening.Makes engine call →
      call.runId = runId →
        engine.workflows.get? flow.id = some workflow ∧ call.Instantiates workflow)
    {run : Run} {next : String} (he : .leave run (some next) ∈ first.history runId happenings) :
    flow.Moves run.currentStep next := by
  rw [← (Workflow.ofFlow_compiles compiled).workflowType] at ofType made
  have steady := Workflow.ofFlow_unpaused compiled
  have kept : ∀ happening ∈ happenings, ∀ engine call, happening.Makes engine call →
      call.runId = runId → engine.Upholds (OfType workflow.workflowType) call := by
    rintro happening hm engine call makes rfl
    obtain ⟨registered, made⟩ := made happening hm engine call makes rfl
    refine .of_unpaused (keeps_ofType made) fun s ofType _ _ granted => ?_
    cases ofType.drives registered made (.intro s.world granted)
    exact steady
  obtain ⟨happening, ha, engine, call, loaded, clock, makes, rfl, ofType, happens⟩ :=
    mem_history kept ofType he
  obtain ⟨registered, made⟩ := made happening ha engine call makes rfl
  have arises : engine.Arises clock.timestamp loaded call (.leave run (some next)) := by
    refine happens.arises fun _ _ granted => ?_
    cases ofType.drives registered made (.intro first.world granted)
    exact steady
  cases arises with | pass drives within => ?_
  obtain rfl := ofType.drives registered made drives
  obtain ⟨_, _, within⟩ := Workflow.mem_passEvents within
  obtain ⟨handler, known, advances⟩ := Workflow.exists_advance within
  exact Workflow.moves_of_advance compiled known advances

end Engine

namespace Flow

variable {ω : Type} {flow : Flow} {tasks : Dict (StepTask ω)} {workflow : Workflow ω}

open Engine

structure Terminates (flow : Flow) (tasks : Dict (StepTask ω)) (workflow : Workflow ω) : Prop where
  passes : ∀ now run world, flow.PassWithin tasks workflow now run world
  -- No step is left twice, whatever is done to a run and to the rest of the store.
  runs : ∀ (first : State ω) runId happenings, OfType flow.id (first.store.get? runId) →
    (∀ happening ∈ happenings, ∀ engine call, happening.Makes engine call → call.runId = runId →
      engine.workflows.get? flow.id = some workflow ∧ call.Instantiates workflow) →
        (Event.stepsLeft (first.history runId happenings)).Nodup

-- Along the moves of an acyclic flow the rank falls. So a pass comes to its end within as many
-- handlers as there are steps, wherever it starts, and a run never leaves a step twice, however
-- often it is suspended, fails and is gone on with.
theorem acyclic_terminates (compiled : Workflow.ofFlow flow tasks = .returned (.ok workflow))
    (acyclic : flow.Acyclic) : flow.Terminates tasks workflow := by
  refine { passes := pass_within compiled acyclic, runs := ?runs }
  intro first runId happenings ofType made
  have wellFormed := (Workflow.ofFlow_compiles compiled).wellFormed
  have leads : Leads (first.store.get? runId) (first.history runId happenings) _ :=
    history_leads fun happening hm engine call makes addressed =>
      (made happening hm engine call makes addressed).2.fresh
  have falls (run : Run) (next : String)
      (he : .leave run (some next) ∈ first.history runId happenings) :
      flow.rank next < flow.rank run.currentStep :=
    rank_lt acyclic wellFormed (moves_of_mem_history compiled ofType made he)
  have live (event : Event ω) (he : event ∈ first.history runId happenings) :
      event.run.status.isClosed = false := live_of_mem_history he
  have distinct {begun last : Run}
      (chronicle : Chronicle begun (first.history runId happenings) last) :
      (Event.stepsLeft (first.history runId happenings)).Nodup :=
    nodup_of_falls (chronicle.falls flow.rank falls live).1
  generalize first.history runId happenings = history at leads distinct ⊢
  generalize first.store.get? runId = stored at leads
  generalize (happenings.foldl State.happen first).store.get? runId = left at leads
  cases leads with
  | absent                                 => exact List.nodup_nil
  | started _ chronicle | stored chronicle => exact distinct chronicle

end Flow

namespace Flow.Shipment

open Engine

def flow : Flow where
  id := "shipment"
  name := "Shipment"
  version := "1"
  globalStateSchema := none
  state := none
  steps := [
    ⟨"order", "", .begin, none⟩,
    ⟨"pack", "", .task none none, none⟩,
    ⟨"weigh", "", .decision, none⟩,
    ⟨"letter", "", .resumeAfter "1 hour", none⟩,
    ⟨"parcel", "", .resumeAfter "1 minute", none⟩,
    ⟨"sign", "", .waitForEvent none none, none⟩,
    ⟨"done", "", .finish, none⟩]
  connections := [
    ⟨"1", "order", "pack", none⟩,
    ⟨"2", "pack", "weigh", none⟩,
    ⟨"3", "weigh", "letter", some "state.kilos < 1"⟩,
    ⟨"4", "weigh", "parcel", none⟩,
    ⟨"5", "letter", "done", none⟩,
    ⟨"6", "parcel", "sign", none⟩,
    ⟨"7", "sign", "done", none⟩,
    ⟨"8", "sign", "pack", none⟩]
  metadata := none

def pack : StepTask Nat := fun _ _ attempts =>
  (if attempts = 0 then .failed "closed" else .returned (.ofMembers [("kilos", .nat 3)]),
    attempts + 1)

def tasks : Dict (StepTask Nat) :=
  .ofPairs [("pack", pack)]

def workflow : Workflow Nat :=
  match Workflow.ofFlow flow tasks with
  | .returned (.ok workflow) => workflow
  | _                        => ⟨"", "", .null, .empty⟩

def depot : Engine Nat :=
  ⟨.ofPairs [("shipment", workflow)], .standard⟩

def opening : State Nat :=
  ⟨.empty, 0, .epoch⟩

def delivery : List (Happening Nat) :=
  [.act (.call depot (.run "r" workflow.instantiate)), .act (.call depot (.retry "r")),
    .act (.clock { nanos := 60000000000 }), .act (.sweep depot),
    .act (.call depot (.resume "r" "sign:sign" none))]

theorem compiled : Workflow.ofFlow flow tasks = .returned (.ok workflow) := by
  have covered : flow.Covered tasks := by
    rw [Covered]
    decide +kernel
  obtain ⟨_, h⟩ := Workflow.exists_ofFlow (validate_eq_nil_iff.mp (by decide +kernel)) covered
  rw [workflow, h]

theorem acyclic : flow.Acyclic :=
  acyclic_of_falls ["done", "sign", "parcel", "letter", "weigh", "pack", "order"].idxOf
    (by decide +kernel)

theorem delivery_made : ∀ happening ∈ delivery, ∀ engine call, happening.Makes engine call →
    call.runId = "r" →
      engine.workflows.get? flow.id = some workflow ∧ call.Instantiates workflow := by
  intro happening hm engine call makes _
  simp only [delivery, List.mem_cons, List.not_mem_nil, or_false] at hm
  rcases hm with rfl | rfl | rfl | rfl | rfl <;> rcases makes with ⟨⟨⟩⟩
  case inl => exact ⟨rfl, _, rfl⟩
  all_goals exact ⟨rfl, trivial⟩

theorem shipped_within :
    Workflow.ofFlow flow tasks = .returned (.ok workflow) ∧ flow.Acyclic ∧
      flow.Terminates tasks workflow ∧
      Event.stepsLeft (opening.history "r" delivery) =
        ["order", "pack", "weigh", "parcel", "sign", "done"] ∧
      (Event.stepsLeft (opening.history "r" delivery)).Nodup := by
  have terminates := acyclic_terminates compiled acyclic
  exact ⟨compiled, acyclic, terminates, by decide +kernel,
    terminates.runs opening "r" delivery nofun delivery_made⟩

end Flow.Shipment

end DurableWorkflow
