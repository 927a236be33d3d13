import DurableWorkflow.Engine.Basic
import DurableWorkflow.Proofs.Workflow.Exchange

namespace DurableWorkflow

namespace Store

def commit (store : Store) (runId : String) : Option Run → Store
  | some run => store.insert runId run
  | none     => store

def only (runId : String) (run : Option Run) : Store :=
  commit .empty runId run

theorem get?_commit_self {store : Store} {runId : String} {staged : Option Run} :
    (store.commit runId staged).get? runId = staged.or (store.get? runId) := by
  cases staged <;> simp [commit]

theorem get?_commit_of_ne {store : Store} {runId other : String} {staged : Option Run}
    (h : runId ≠ other) : (store.commit runId staged).get? other = store.get? other := by
  cases staged <;> simp [commit, h]

theorem commit_comm {store : Store} {runId other : String} {staged staged' : Option Run}
    (h : runId ≠ other) :
    (store.commit runId staged).commit other staged' =
      (store.commit other staged').commit runId staged := by
  refine Dict.ext_get? fun key => ?_
  cases staged <;> cases staged' <;> simp only [commit, Dict.get?_insert]
  grind

@[simp]
theorem get?_only {runId : String} {run : Option Run} : (only runId run).get? runId = run := by
  simp [only, get?_commit_self]

end Store

def CallEnd.returned : CallEnd → Bool
  | .passed _ | .settled | .refused _ => true
  | .panicked | .unfinished           => false

def CallEnd.result? : CallEnd → Option RunResult
  | .passed result                                  => some result
  | .settled | .refused _ | .panicked | .unfinished => none

theorem CallEnd.eq_passed {ending : CallEnd} (h : ending.result?.isSome) :
    ending = .passed (ending.result?.get h) := by
  cases ending <;> first | rfl | cases h

def Call.opening {ω : Type} (now : Timestamp) (loaded : Option Run) (world : ω) :
    Call → List (Exchange ω)
  | .resume _ id payload => loaded.toList.map fun run => ⟨now, .resolve id payload, run, world⟩
  | .run .. | .retry _ | .cancel _ => []

namespace Engine

variable {ω : Type} {engine : Engine ω} {now : Timestamp} {store store' : Store} {call : Call}
  {world world' : ω} {loaded staged : Option Run} {prepared : Prepared ω} {ending : CallEnd}

def opened (engine : Engine ω) (runId : String) (initial : Run) : Run :=
  { initial with id := some runId }.keepAuditLog engine.config.auditLog

-- The calls that may go on after the run that they address was loaded, and with what.
inductive Grants (engine : Engine ω) (now : Timestamp) (loaded : Option Run) :
    Call → Prepared ω → Prop
  | run {runId : String} {initial : Run} {workflow : Workflow ω}
      (new   : loaded = none)
      (known : engine.workflow initial.workflowType = .ok workflow) :
      Grants engine now loaded (.run runId initial) (.drive workflow (engine.opened runId initial))
  | resume {runId id : String} {payload : Option Json} {run after : Run} {fired : Bool}
      {workflow : Workflow ω}
      (stored   : loaded = some run)
      (known    : engine.workflow run.workflowType = .ok workflow)
      (resolved : run.resolve now id payload = (.ok fired, after))
      (live     : after.status.isClosed = false) :
      Grants engine now loaded (.resume runId id payload) (.drive workflow after)
  | retry {runId : String} {run : Run} {workflow : Workflow ω}
      (stored : loaded = some run)
      (failed : run.status = .failed)
      (known  : engine.workflow run.workflowType = .ok workflow) :
      Grants engine now loaded (.retry runId) (.drive workflow run)
  | cancelled {runId : String} {run : Run}
      (stored : loaded = some run)
      (gone   : run.status = .cancelled) :
      Grants engine now loaded (.cancel runId) .nothing
  | cancel {runId : String} {run : Run}
      (stored : loaded = some run)
      (live   : run.status.isClosed = false) :
      Grants engine now loaded (.cancel runId) (.keep run.cancel)

theorem stored_eq_ok_iff {runId : String} {run : Run} :
    stored store runId = .ok run ↔ store.get? runId = some run := by
  rw [stored]
  cases store.get? runId <;> simp

theorem stored_only {runId : String} :
    stored (.only runId loaded) runId =
      match loaded with
      | some run => .ok run
      | none     => .error (.unknownRun runId) := by
  cases loaded <;> simp [stored]

theorem bind_eq_ok_iff {α β : Type} {first : Except Error α} {next : α → Except Error β} {b : β} :
    first >>= next = .ok b ↔ ∃ a, first = .ok a ∧ next a = .ok b := by
  cases first <;> simp [bind, Except.bind]

theorem prepare_eq_ok_iff :
    engine.prepare now store call = .ok prepared ↔
      engine.Grants now (store.get? call.runId) call prepared := by
  constructor
  case mp =>
    intro h
    cases call
    case run runId initial =>
      have ⟨workflow, known, h⟩ := bind_eq_ok_iff.mp h
      cases stored : store.get? runId <;> simp [Dict.contains, stored] at h
      case none => cases h; exact .run stored known
      case some => cases h
    case resume runId id payload =>
      have ⟨run, hs, h⟩ := bind_eq_ok_iff.mp h
      have ⟨workflow, known, h⟩ := bind_eq_ok_iff.mp h
      rcases resolved : run.resolve now id payload with ⟨_ | fired, after⟩ <;>
        simp [resolved] at h
      case error => cases h
      case ok =>
        cases live : after.status.isClosed <;> simp [live, bind, Except.bind] at h
        case false => cases h; exact .resume (stored_eq_ok_iff.mp hs) known resolved live
        case true  => cases h
    case retry runId =>
      have ⟨run, hs, h⟩ := bind_eq_ok_iff.mp h
      by_cases failed : run.status = .failed <;> simp [failed] at h
      case pos =>
        have ⟨workflow, known, h⟩ := bind_eq_ok_iff.mp h
        cases h
        exact .retry (stored_eq_ok_iff.mp hs) failed known
      case neg => cases h
    case cancel runId =>
      have ⟨run, hs, h⟩ := bind_eq_ok_iff.mp h
      have stored := stored_eq_ok_iff.mp hs
      cases status : run.status <;> simp only [status] at h <;> cases h
      case cancelled => exact .cancelled stored status
      all_goals exact .cancel stored (by rw [status]; rfl)
  case mpr =>
    intro h
    cases h with
    | run new known =>
      simp only [Call.runId] at new
      simp [prepare, known, Dict.contains, new, bind, Except.bind, pure, Except.pure, opened]
    | resume stored known resolved live =>
      simp only [Call.runId, ← stored_eq_ok_iff] at stored
      simp [prepare, stored, known, resolved, live, bind, Except.bind, pure, Except.pure]
    | retry stored failed known =>
      simp only [Call.runId, ← stored_eq_ok_iff] at stored
      simp [prepare, stored, known, failed, bind, Except.bind, pure, Except.pure]
    | cancelled stored gone =>
      simp only [Call.runId, ← stored_eq_ok_iff] at stored
      simp [prepare, stored, gone, bind, Except.bind, pure, Except.pure]
    | @cancel _ run stored live =>
      simp only [Call.runId, ← stored_eq_ok_iff] at stored
      cases status : run.status <;> simp [status, RunStatus.isClosed] at live <;>
        simp [prepare, stored, status, bind, Except.bind, pure, Except.pure]

theorem prepare_congr (h : store.get? call.runId = store'.get? call.runId) :
    engine.prepare now store call = engine.prepare now store' call := by
  cases call <;> simp only [Call.runId] at h <;> simp [prepare, stored, Dict.contains, h]

def stage (run : Run) : PassEnd → CallEnd × Option Run
  | .finished        => (.passed (.finished run.name run.state), some run)
  | .suspended entry => (.passed (.needResume run.name entry), some run)
  | .failed error    => (.passed (.error run.name error), some run)
  | .panicked        => (.panicked, none)
  | .unfinished      => (.unfinished, none)

theorem conclude_eq_stage (store : Store) (runId : String) (ending : PassEnd) (run : Run) :
    conclude store runId ending run =
      ((stage run ending).1, store.commit runId (stage run ending).2) := by
  cases ending <;> rfl

-- What a call makes of the run that its unit of work loaded: how it ends, and what it stages to be
-- stored in the place of that run, if anything.
def work (engine : Engine ω) (now : Timestamp) (call : Call) (loaded : Option Run) (world : ω) :
    CallEnd × Option Run × ω :=
  match engine.prepare now (.only call.runId loaded) call with
  | .error error => (.refused error, none, world)
  | .ok .nothing => (.settled, none, world)
  | .ok (.keep run) => (.settled, some run, world)
  | .ok (.drive workflow run) =>
    let (ending, run, world) := workflow.execute now engine.config.budget run world
    let (ending, staged) := stage run ending
    (ending, staged, world)

theorem perform_eq (engine : Engine ω) (now : Timestamp) (call : Call) (store : Store) (world : ω) :
    engine.perform now call store world =
      let (ending, staged, world) := engine.work now call (store.get? call.runId) world
      (ending, store.commit call.runId staged, world) := by
  have h : store.get? call.runId = (Store.only call.runId (store.get? call.runId)).get? call.runId :=
    Store.get?_only.symm
  rw [perform, work, prepare_congr h]
  rcases engine.prepare now (.only call.runId (store.get? call.runId)) call with
    error | workflow | run | _
  case ok.drive => simp only [conclude_eq_stage]
  all_goals rfl

theorem perform_eq_iff :
    engine.perform now call store world = (ending, store', world') ↔
      ∃ staged, engine.work now call (store.get? call.runId) world = (ending, staged, world') ∧
        store' = store.commit call.runId staged := by
  rw [perform_eq]
  rcases engine.work now call (store.get? call.runId) world with ⟨ending', staged, world''⟩
  grind

theorem perform_elsewhere {other : String}
    (h : engine.perform now call store world = (ending, store', world'))
    (hne : call.runId ≠ other) : store'.get? other = store.get? other := by
  obtain ⟨staged, _, rfl⟩ := perform_eq_iff.mp h
  exact Store.get?_commit_of_ne hne

theorem perform_of_refusal {error : Error} (h : engine.refusal? call = some error) :
    engine.perform now call store world = (.refused error, store, world) := by
  cases call with
  | run runId initial =>
    cases known : engine.workflow initial.workflowType <;> simp [refusal?, known] at h
    subst h
    simp [perform, prepare, known, bind, Except.bind]
  | resume | retry | cancel => cases h

-- Calls that are made one after another, each at a time and in surroundings of its own: how they
-- end, with what they leave of their surroundings, and the store in the end.
def performAll (engine : Engine ω) :
    List (Timestamp × ω × Call) → Store → List (CallEnd × ω) × Store
  | [], store => ([], store)
  | (now, world, call) :: rest, store =>
    let (ending, store, world) := engine.perform now call store world
    let (ends, store) := engine.performAll rest store
    ((ending, world) :: ends, store)

theorem performAll_swap {now₁ now₂ : Timestamp} {world₁ world₂ : ω} {call₁ call₂ : Call}
    (h : call₁.runId ≠ call₂.runId) (store : Store) :
    let (ends, after) := engine.performAll [(now₁, world₁, call₁), (now₂, world₂, call₂)] store
    engine.performAll [(now₂, world₂, call₂), (now₁, world₁, call₁)] store =
      (ends.reverse, after) := by
  simp only [performAll, perform_eq, Store.get?_commit_of_ne h, Store.get?_commit_of_ne h.symm]
  rw [Store.commit_comm h]
  rfl

def origin (engine : Engine ω) (loaded : Option Run) : Call → Option Run
  | .run runId initial => some (engine.opened runId initial)
  | .resume .. | .retry _ | .cancel _ => loaded

def exchanges (engine : Engine ω) (now : Timestamp) (call : Call) (loaded : Option Run)
    (world : ω) : List (Exchange ω) :=
  match engine.prepare now (.only call.runId loaded) call with
  | .ok (.drive workflow run) =>
    call.opening now loaded world ++ workflow.passExchanges now engine.config.budget run world
  | _ => []

inductive Works (engine : Engine ω) (now : Timestamp) (call : Call) (loaded : Option Run)
    (world : ω) : CallEnd → Option Run → ω → Prop
  | refused {error : Error}
      (refused : engine.prepare now (.only call.runId loaded) call = .error error) :
      Works engine now call loaded world (.refused error) none world
  | settled (granted : engine.Grants now loaded call .nothing) :
      Works engine now call loaded world .settled none world
  | kept {run : Run} (granted : engine.Grants now loaded call (.keep run)) :
      Works engine now call loaded world .settled (some run) world
  | driven {workflow : Workflow ω} {run after : Run} {result : PassEnd} {world' : ω}
      (granted : engine.Grants now loaded call (.drive workflow run))
      (pass : workflow.execute now engine.config.budget run world = (result, after, world')) :
      Works engine now call loaded world (stage after result).1 (stage after result).2 world'

theorem prepare_only_eq_ok_iff :
    engine.prepare now (.only call.runId loaded) call = .ok prepared ↔
      engine.Grants now loaded call prepared := by
  rw [prepare_eq_ok_iff, Store.get?_only]

theorem work_eq_iff :
    engine.work now call loaded world = (ending, staged, world') ↔
      engine.Works now call loaded world ending staged world' := by
  constructor
  case mp =>
    intro h
    rw [work] at h
    cases hp : engine.prepare now (.only call.runId loaded) call <;> simp only [hp] at h
    case error error =>
      cases h
      exact .refused hp
    case ok prepared =>
      have granted := prepare_only_eq_ok_iff.mp hp
      cases prepared <;> simp only at h
      case drive workflow run => cases h; exact .driven granted rfl
      case keep run           => cases h; exact .kept granted
      case nothing            => cases h; exact .settled granted
  case mpr =>
    intro h
    cases h with
    | refused refused => simp [work, refused]
    | settled granted | kept granted => simp [work, prepare_only_eq_ok_iff.mpr granted]
    | driven granted pass => simp [work, prepare_only_eq_ok_iff.mpr granted, pass]

theorem work_of_refused {error : Error}
    (h : engine.prepare now (.only call.runId loaded) call = .error error) :
    engine.work now call loaded world = (.refused error, none, world) :=
  work_eq_iff.mpr (.refused h)

theorem work_of_drive {workflow : Workflow ω} {run : Run}
    (granted : engine.Grants now loaded call (.drive workflow run)) :
    engine.work now call loaded world =
      let (ending, run, world) := workflow.execute now engine.config.budget run world
      let (ending, staged) := stage run ending
      (ending, staged, world) :=
  work_eq_iff.mpr (.driven granted rfl)

theorem exists_staged_of_passed {result : RunResult}
    (h : engine.work now call loaded world = (.passed result, staged, world')) :
    ∃ run, staged = some run := by
  generalize he : CallEnd.passed result = ending at h
  cases work_eq_iff.mp h with
  | refused | settled | kept => cases he
  | @driven _ _ _ result => cases result <;> simp [stage] at he ⊢

theorem eq_of_stage {run run' : Run} {result : PassEnd} (h : (stage run result).2 = some run') :
    run = run' := by
  cases result <;> simp [stage] at h <;> exact h

theorem exchanges_of_drive {workflow : Workflow ω} {run : Run}
    (granted : engine.Grants now loaded call (.drive workflow run)) :
    engine.exchanges now call loaded world = call.opening now loaded world ++
      workflow.passExchanges now engine.config.budget run world := by
  rw [exchanges, prepare_only_eq_ok_iff.mpr granted]

theorem work_trail {run' : Run}
    (h : engine.work now call loaded world = (ending, some run', world')) :
    ∃ run, engine.origin loaded call = some run ∧
      Trail run (engine.exchanges now call loaded world) run' := by
  generalize hs : some run' = staged at h
  cases work_eq_iff.mp h with
  | refused | settled => cases hs
  | kept granted =>
    cases hs
    rw [exchanges, prepare_only_eq_ok_iff.mpr granted]
    cases granted with
    | cancel stored live => exact ⟨_, stored, .nil .cancel⟩
  | @driven workflow run after result _ granted pass =>
    cases eq_of_stage hs.symm
    have trail := workflow.passTrail now engine.config.budget run world
    rw [pass] at trail
    rw [exchanges_of_drive granted]
    cases granted with
    | run new known => exact ⟨_, rfl, trail⟩
    | retry stored failed known => exact ⟨run, stored, trail⟩
    | @resume _ _ _ before _ _ _ stored known resolved live =>
      subst stored
      refine ⟨before, rfl, .cons (.refl before) ?_⟩
      simpa [Exchange.after, Request.answer, resolved] using trail

theorem exchanges_eq_nil (h : engine.work now call loaded world = (ending, none, world'))
    (returned : ending.returned) : engine.exchanges now call loaded world = [] := by
  generalize hs : none = staged at h
  rw [exchanges]
  cases work_eq_iff.mp h with
  | refused refused => simp [refused]
  | settled granted => simp [prepare_only_eq_ok_iff.mpr granted]
  | kept => cases hs
  | @driven _ _ _ result => cases result <;> simp [stage, CallEnd.returned] at hs returned

theorem loaded_eq_none_of_run {runId : String} {initial run' : Run}
    (h : engine.work now (.run runId initial) loaded world = (ending, some run', world')) :
    loaded = none := by
  generalize hs : some run' = staged at h
  cases work_eq_iff.mp h with
  | refused | settled => cases hs
  | kept granted => cases granted
  | driven granted =>
    cases granted with
    | run new known => exact new

end Engine

end DurableWorkflow
