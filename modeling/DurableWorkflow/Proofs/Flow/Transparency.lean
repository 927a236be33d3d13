import DurableWorkflow.Proofs.Flow.Correctness
import DurableWorkflow.Proofs.Flow.Retry

namespace DurableWorkflow

def CallEnd.failed : CallEnd → Bool
  | .passed result                                  => result.isError
  | .settled | .refused _ | .panicked | .unfinished => false

-- A call is made, and then the run is retried for as long as it fails.
inductive Engine.Persists {ω : Type} (engine : Engine ω) (now : Timestamp) :
    Call → Store → ω → CallEnd → Store → ω → Prop
  | atOnce {call : Call} {store store' : Store} {world world' : ω} {ending : CallEnd}
      (performed : engine.perform now call store world = (ending, store', world'))
      (fine : ending.failed = false) : Persists engine now call store world ending store' world'
  | later {call : Call} {store store₁ store' : Store} {world world₁ world' : ω}
      {failure ending : CallEnd}
      (performed : engine.perform now call store world = (failure, store₁, world₁))
      (failed : failure.failed)
      (rest : Persists engine now (.retry call.runId) store₁ world₁ ending store' world') :
      Persists engine now call store world ending store' world'

theorem Engine.Persists.unique {ω : Type} {engine : Engine ω} {now : Timestamp} {call : Call}
    {store store₁ store₂ : Store} {world world₁ world₂ : ω} {ending₁ ending₂ : CallEnd}
    (h₁ : engine.Persists now call store world ending₁ store₁ world₁)
    (h₂ : engine.Persists now call store world ending₂ store₂ world₂) :
    (ending₁, store₁, world₁) = (ending₂, store₂, world₂) := by
  induction h₁ with
  | atOnce performed fine =>
    cases h₂ with
    | atOnce performed' => exact performed.symm.trans performed'
    | later performed' failed =>
      cases performed.symm.trans performed'
      cases fine.symm.trans failed
  | later performed failed rest ih =>
    cases h₂ with
    | atOnce performed' fine =>
      cases performed.symm.trans performed'
      cases fine.symm.trans failed
    | later performed' _ rest' =>
      cases performed.symm.trans performed'
      exact ih rest'

theorem Errand.call_runId {ω : Type} {workflow : Workflow ω} {runId : String} {errand : Errand} :
    (errand.call workflow runId).runId = runId := by
  cases errand <;> rfl

namespace Flow

variable {ω : Type} {flow : Flow} {steady : Dict (StepTask Unit)} {tasks : Dict (StepTask ω)}
  {now : Timestamp} {walk after : Walk} {world world' : ω} {runId : String} {config : Config}
  {workflow : Workflow ω} {engine : Engine ω} {store : Store} {errand : Errand}
  {loaded staged : Option Walk} {ending : CallEnd}

def landed (runId : String) : PassEnd × Walk × ω → CallEnd × Option Walk × ω
  | (.finished, walk, world)        => (.passed (.finished runId walk.state), some walk, world)
  | (.suspended entry, walk, world) => (.passed (.needResume runId entry), some walk, world)
  | (.failed error, walk, world)    => (.passed (.error runId error), some walk, world)
  | (.panicked, _, world)           => (.panicked, none, world)
  | (.unfinished, _, world)         => (.unfinished, none, world)

theorem drive_eq_landed (live : walk.status.isClosed = false) :
    flow.drive tasks config runId now walk world =
      landed runId
        (flow.travel tasks now config.budget config.budget.rounds walk.launch world) := by
  rw [drive, pass, live]
  rcases flow.travel tasks now config.budget config.budget.rounds walk.launch world with
    ⟨_ | _ | _ | _ | _, _, _⟩ <;> rfl

theorem arrives_of_landed {ending : PassEnd}
    (returned : (landed runId (ending, walk, world)).1.returned)
    (fine : (landed runId (ending, walk, world)).1.failed = false) : ending.arrives := by
  cases ending
  case finished | suspended  => rfl
  case failed                => cases fine
  case panicked | unfinished => cases returned

theorem landed_withoutFailures {ending : PassEnd} (world : ω) (arrives : ending.arrives) :
    landed runId (ending, walk.withoutFailures, ()) =
      ((landed runId (ending, walk, world)).1, some walk.withoutFailures, ()) := by
  cases ending <;> first | rfl | cases arrives

structure Holds (flow : Flow) (runId : String) (store : Store) (loaded : Option Walk) : Prop where
  stored : store.get? runId = loaded.map (Walk.snapshot flow runId)
  on     : ∀ walk, loaded = some walk → walk.On flow

theorem Compiles.perform_errand (h : flow.Compiles tasks workflow)
    (registered : engine.workflows.get? flow.id = some workflow)
    (holds : flow.Holds runId store loaded)
    (hu : flow.undertake tasks engine.config runId now world errand loaded =
      (ending, staged, world')) :
    ∃ store', engine.perform now (errand.call workflow runId) store world =
        (ending, store', world') ∧
      flow.Holds runId store' (staged.or loaded) := by
  have work := h.work_eq registered runId now errand world holds.on
  rw [hu, ← holds.stored] at work
  refine ⟨store.commit runId (staged.map (Walk.snapshot flow runId)), ?_, ?_, fun walk hw => ?_⟩
  · rw [Engine.perform_eq, Errand.call_runId, work]
  · rw [Store.get?_commit_self, holds.stored]
    cases staged <;> rfl
  · cases staged
    case none      => exact holds.on walk hw
    case some last => exact undertake_on h.wellFormed holds.on ((congrArg (·.2.1) hu).trans hw)

-- By induction on the failures: a retry takes up the walk that was kept.
theorem Arrives.persists (h : flow.Compiles tasks workflow)
    (registered : engine.workflows.get? flow.id = some workflow) {left : Nat} {result : PassEnd}
    (arrives : flow.Arrives tasks now engine.config.budget left walk world result after world')
    (well : result.arrives) (holds : flow.Holds runId store loaded)
    (hu : flow.undertake tasks engine.config runId now world errand loaded =
      landed runId (flow.travel tasks now engine.config.budget left walk world)) :
    ∃ store', engine.Persists now (errand.call workflow runId) store world
        (landed runId (result, after, world')).1 store' world' ∧
      flow.Holds runId store' (some after) := by
  induction arrives generalizing errand loaded store with
  | @atOnce left walk after world world' result travel =>
    rw [travel] at hu
    obtain ⟨store', performed, holds⟩ := h.perform_errand registered holds hu
    cases result <;> cases well
    all_goals exact ⟨store', .atOnce performed rfl, holds⟩
  | @later left walk last after world world₁ world' result error travel failed rest ih =>
    rw [travel] at hu
    obtain ⟨store', performed, holds⟩ := h.perform_errand registered holds hu
    have live : last.status.isClosed = false := by rw [failed]; rfl
    have retried : flow.undertake tasks engine.config runId now world₁ .retry (some last) =
        landed runId
          (flow.travel tasks now engine.config.budget engine.config.budget.rounds last.launch
            world₁) := by
      rw [undertake, if_pos failed, drive_eq_landed live]
    obtain ⟨store', persists, holds⟩ := ih well holds retried
    refine ⟨store', .later performed rfl ?_, holds⟩
    rw [Errand.call_runId]
    exact persists

theorem undertake_withoutFailures (tasks : Dict (StepTask ω)) (errand : Errand)
    (loaded : Option Walk) (world : ω) :
    (∃ before : Walk, before.status.isClosed = false ∧
      flow.undertake steady config runId now () errand (loaded.map Walk.withoutFailures) =
        flow.drive steady config runId now before.withoutFailures () ∧
      flow.undertake tasks config runId now world errand loaded =
        flow.drive tasks config runId now before world) ∨
    ∃ ending staged,
      flow.undertake steady config runId now () errand (loaded.map Walk.withoutFailures) =
        (ending, staged.map Walk.withoutFailures, ()) ∧
      flow.undertake tasks config runId now world errand loaded = (ending, staged, world) := by
  cases loaded <;> cases errand <;>
    simp only [Option.map_none, Option.map_some, undertake, Walk.withoutFailures_status,
      Walk.withoutFailures_awaits]
  case none.start state =>
    cases begins : flow.beginStep?
    case none => exact .inr ⟨_, none, rfl, rfl⟩
    case some start =>
      have same : (embark start config state).withoutFailures = embark start config state := by
        rw [embark, Walk.withoutFailures]
        cases config.auditLog <;> rfl
      exact .inl ⟨_, rfl, by rw [same], rfl⟩
  case none.resume | none.retry | none.cancel | some.start => exact .inr ⟨_, none, rfl, rfl⟩
  case some.resume walk id payload =>
    by_cases unknown : (!walk.awaits id) = true
    case pos => exact .inr ⟨_, none, if_pos unknown, if_pos unknown⟩
    case neg =>
      by_cases closed : walk.status.isClosed
      case pos =>
        exact .inr ⟨_, none, (if_neg unknown).trans (if_pos closed),
          (if_neg unknown).trans (if_pos closed)⟩
      case neg =>
        exact .inl ⟨walk.resolve now payload, by simpa using closed,
          (if_neg unknown).trans (if_neg closed), (if_neg unknown).trans (if_neg closed)⟩
  case some.retry walk =>
    by_cases failed : walk.status = .failed
    case pos =>
      have live : walk.status.isClosed = false := by rw [failed]; rfl
      exact .inl ⟨walk, live, if_pos failed, if_pos failed⟩
    case neg => exact .inr ⟨_, none, if_neg failed, if_neg failed⟩
  case some.cancel walk =>
    cases walk.status
    case finished | cancelled => exact .inr ⟨_, none, rfl, rfl⟩
    all_goals exact .inr ⟨_, some walk.cancel, rfl, rfl⟩

theorem Compiles.errand_persists (h : flow.Compiles tasks workflow)
    (registered : engine.workflows.get? flow.id = some workflow) (falter : Falter steady tasks)
    (errand : Errand) (holds : flow.Holds runId store loaded)
    (hu : flow.undertake steady engine.config runId now () errand
      (loaded.map Walk.withoutFailures) = (ending, staged, ()))
    (returned : ending.returned) (fine : ending.failed = false) (world : ω) :
    ∃ last store' world',
      engine.Persists now (errand.call workflow runId) store world ending store' world' ∧
      flow.Holds runId store' last ∧
      last.map Walk.withoutFailures = staged.or (loaded.map Walk.withoutFailures) := by
  obtain ⟨before, live, quiet, driven⟩ | ⟨ending', staged', quiet, still⟩ :=
    undertake_withoutFailures tasks errand loaded world
  case inl =>
    have live' : before.withoutFailures.status.isClosed = false := live
    rw [drive_eq_landed live] at driven
    rw [quiet, drive_eq_landed live', Walk.withoutFailures_launch] at hu
    rcases travel : flow.travel steady now engine.config.budget engine.config.budget.rounds
      before.launch.withoutFailures () with ⟨result, after, _⟩
    rw [travel] at hu
    obtain rfl : (landed runId (result, after, ())).1 = ending := congrArg Prod.fst hu
    obtain rfl : (landed runId (result, after, ())).2.1 = staged := congrArg (·.2.1) hu
    have well : result.arrives := arrives_of_landed returned fine
    obtain ⟨last, world', arrives, rfl⟩ :=
      arrives_of_travel falter travel well rfl rfl (Nat.le_refl _) (Nat.le_refl _) world
    obtain ⟨store', persists, holds⟩ := arrives.persists h registered well holds driven
    rw [landed_withoutFailures world' well]
    exact ⟨some last, store', world', persists, holds, rfl⟩
  case inr =>
    obtain ⟨store', performed, holds⟩ := h.perform_errand registered holds still
    obtain ⟨rfl, rfl⟩ : ending' = ending ∧ staged'.map Walk.withoutFailures = staged := by
      simpa using quiet.symm.trans hu
    refine ⟨staged'.or loaded, store', world, .atOnce performed fine, holds, ?_⟩
    cases staged' <;> rfl

theorem Compiles.instantiate_eq {quiet : Workflow Unit} (h : flow.Compiles tasks workflow)
    (h' : flow.Compiles steady quiet) : quiet.instantiate = workflow.instantiate := by
  have ⟨start, begins, at_start⟩ := h.startStep
  have ⟨start', begins', at_start'⟩ := h'.startStep
  cases begins.symm.trans begins'
  rw [Workflow.instantiate, Workflow.instantiate, h.workflowType, h'.workflowType, at_start,
    at_start', h.initialState, h'.initialState]

theorem call_congr {quiet : Workflow Unit} (h : quiet.instantiate = workflow.instantiate)
    (errand : Errand) : errand.call quiet runId = errand.call workflow runId := by
  cases errand
  case start state => rw [Errand.call, Errand.call, h]
  all_goals rfl

end Flow

namespace Engine

variable {ω : Type} {flow : Flow} {steady : Dict (StepTask Unit)} {tasks : Dict (StepTask ω)}
  {runId : String} {quiet : Workflow Unit} {workflow : Workflow ω} {engine : Engine Unit}
  {engine' : Engine ω}

-- Two engines are given the same calls on a run; in the second, each call is followed by retries
-- for as long as the run fails. Whatever goes on around the second engine, both tell the same in
-- the end, and the runs that they store only differ in the failures that are on record.
def Lockstep (engine : Engine Unit) (engine' : Engine ω) (runId : String) :
    List (Timestamp × Call) → Store → Store → Prop
  | [], _, _ => True
  | (now, call) :: rest, store, store' =>
    let (ending, after, _) := engine.perform now call store ()
    ∀ world, ∃ after' world', engine'.Persists now call store' world ending after' world' ∧
      (∀ ending₁ after₁ world₁, engine'.Persists now call store' world ending₁ after₁ world₁ →
        (ending₁, after₁, world₁) = (ending, after', world')) ∧
      (after'.get? runId).map Run.withoutFailures = after.get? runId ∧
      Lockstep engine engine' runId rest after after'

def Succeeds (engine : Engine Unit) (calls : List (Timestamp × Call)) (store : Store) : Prop :=
  let (ends, _) := engine.performAll (calls.map fun (now, call) => (now, (), call)) store
  ∀ outcome ∈ ends, outcome.1.returned ∧ outcome.1.failed = false

theorem lockstep_of_walks (h : flow.Compiles tasks workflow) (h' : flow.Compiles steady quiet)
    (registered : engine.workflows.get? flow.id = some quiet)
    (registered' : engine'.workflows.get? flow.id = some workflow)
    (config : engine'.config = engine.config) (falter : Falter steady tasks)
    {errands : List (Timestamp × Errand)} {loaded : Option Walk} {store store' : Store}
    (holds : flow.Holds runId store (loaded.map Walk.withoutFailures))
    (holds' : flow.Holds runId store' loaded)
    (succeeds : engine.Succeeds
      (errands.map fun (now, errand) => (now, errand.call quiet runId)) store) :
    engine.Lockstep engine' runId
      (errands.map fun (now, errand) => (now, errand.call quiet runId)) store store' := by
  induction errands generalizing loaded store store'
  case nil => trivial
  case cons occasion rest ih =>
    obtain ⟨now, errand⟩ := occasion
    rcases hu : flow.undertake steady engine.config runId now () errand
      (loaded.map Walk.withoutFailures) with ⟨ending, staged, _⟩
    obtain ⟨after, performed, holds⟩ := h'.perform_errand registered holds hu
    simp only [Succeeds, List.map_cons, performAll, performed, List.forall_mem_cons] at succeeds
    obtain ⟨⟨returned, fine⟩, succeeds⟩ := succeeds
    simp only [List.map_cons, Lockstep, performed]
    intro world
    rw [← config] at hu
    obtain ⟨last, after', world', persists, holds', same⟩ :=
      h.errand_persists registered' falter errand holds' hu returned fine world
    rw [← same] at holds
    rw [Flow.call_congr (h.instantiate_eq h')]
    refine ⟨after', world', persists, fun _ _ _ other => other.unique persists, ?_,
      ih holds holds' succeeds⟩
    rw [holds.stored, holds'.stored]
    cases last <;> rfl

-- A run of a compiled flow whose tasks fail now and then, and that is retried for as long as it
-- fails, goes as the run does whose tasks do not fail.
theorem retries_transparent {errands : List (Timestamp × Errand)} {store store' : Store}
    (compiled : Workflow.ofFlow flow steady = .returned (.ok quiet))
    (compiled' : Workflow.ofFlow flow tasks = .returned (.ok workflow))
    (falter : Falter steady tasks)
    (registered : engine.workflows.get? flow.id = some quiet)
    (registered' : engine'.workflows.get? flow.id = some workflow)
    (config : engine'.config = engine.config)
    (new : store.get? runId = none) (new' : store'.get? runId = none) :
    let calls := errands.map fun (now, errand) => (now, errand.call quiet runId)
    engine.Succeeds calls store → engine.Lockstep engine' runId calls store store' := by
  intro calls succeeds
  have h := Workflow.ofFlow_compiles compiled'
  have h' := Workflow.ofFlow_compiles compiled
  have holds : flow.Holds runId store ((none : Option Walk).map Walk.withoutFailures) :=
    ⟨new, by rintro _ ⟨⟩⟩
  have holds' : flow.Holds runId store' none := ⟨new', by rintro _ ⟨⟩⟩
  exact lockstep_of_walks h h' registered registered' config falter holds holds' succeeds

end Engine

namespace Flow.Approval

open Engine

def prompt : StepTask Unit := fun _ _ _ =>
  (.returned (.ofMembers [("n", .nat 2)]), ())

def late : StepTask Nat := fun _ _ line =>
  match line with
  | 0         => (.returned (.ofMembers [("n", .nat 2)]), 0)
  | line' + 1 => (.failed "busy", line')

def compile {ω : Type} (count : StepTask ω) : Workflow ω :=
  match Workflow.ofFlow flow (.ofPairs [("count", count)]) with
  | .returned (.ok workflow) => workflow
  | _                        => ⟨"", "", .null, .empty⟩

theorem ofFlow_eq_compile {ω : Type} (count : StepTask ω) :
    Workflow.ofFlow flow (.ofPairs [("count", count)]) = .returned (.ok (compile count)) := by
  have counts : ∀ step ∈ flow.steps, step.kind.isTask → step.id = "count" := by decide
  have covered : flow.Covered (.ofPairs [("count", count)]) := by
    intro step hm isTask
    rw [counts step hm isTask]
    rfl
  have ⟨_, h⟩ := Workflow.exists_ofFlow wellFormed covered
  rw [compile, h]

def deployed {ω : Type} (count : StepTask ω) : Engine ω :=
  ⟨Dict.ofPairs [("approval", compile count)], .standard⟩

theorem prompt_falters : prompt.Falters late := by
  rintro state params value ⟨⟩ line
  induction line with
  | zero         => exact .atOnce rfl
  | succ line ih => exact .later rfl ih

theorem falter_of_falters {task : StepTask Unit} {other : StepTask Nat} (h : task.Falters other) :
    Falter (.ofPairs [("count", task)]) (.ofPairs [("count", other)]) := by
  intro step given found
  have hm : (step, given) ∈ [("count", task)] :=
    Entries.mem_of_find? (Entries.find?_ofPairs.symm.trans found)
  cases List.mem_singleton.mp hm
  exact ⟨other, rfl, h⟩

def errands : List (Timestamp × Errand) :=
  [(default, .start .null), (default, .resume "approve:approve" none)]

def orders : List (Timestamp × Call) :=
  errands.map fun (now, errand) => (now, errand.call (compile prompt) "r")

theorem approval_transparent :
    (deployed prompt).Succeeds orders .empty ∧
      ((deployed late).perform default ((Errand.start .null).call (compile late) "r") .empty
        3).1.failed ∧
      (deployed prompt).Lockstep (deployed late) "r" orders .empty .empty := by
  have succeeds : (deployed prompt).Succeeds orders .empty := by
    rw [Succeeds]
    decide +kernel
  refine ⟨succeeds, by decide +kernel, ?_⟩
  exact retries_transparent (ofFlow_eq_compile prompt) (ofFlow_eq_compile late)
    (falter_of_falters prompt_falters) rfl rfl rfl rfl rfl succeeds

end Flow.Approval

end DurableWorkflow
