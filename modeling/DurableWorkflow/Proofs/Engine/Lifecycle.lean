import DurableWorkflow.Proofs.Engine.Act
import DurableWorkflow.Proofs.Handler.Frame
import DurableWorkflow.Proofs.Workflow.Round

namespace DurableWorkflow

namespace RunStatus

def successors : RunStatus → List RunStatus
  | .suspended | .failed => [.suspended, .finished, .failed, .cancelled]
  | .finished            => [.finished]
  | .cancelled           => [.cancelled]
  -- A run that is under way is not stored.
  | .running             => []

variable {status later : RunStatus}

theorem self_mem_successors (h : status ≠ .running) : status ∈ status.successors := by
  cases status <;> simp [successors] at h ⊢

theorem mem_successors (h : status ≠ .running) (live : status.isClosed = false)
    (hl : later ≠ .running) : later ∈ status.successors := by
  cases status <;> simp [isClosed] at h live <;> cases later <;> simp [successors] at hl ⊢

end RunStatus

namespace Engine

variable {ω : Type} {engine : Engine ω} {now : Timestamp} {call : Call} {loaded staged : Option Run}
  {run : Run} {runId : String} {prepared : Prepared ω} {ending : CallEnd} {world world' : ω}

-- All that is granted for a closed run is to cancel it once more, for which nothing is to be done.
theorem Grants.eq_nothing (closed : run.status.isClosed)
    (h : engine.Grants now (some run) call prepared) : prepared = .nothing := by
  cases h with
  | run new => cases new
  | resume stored _ resolved live =>
    cases stored
    rw [(Run.resolve_served resolved).status, closed] at live
    cases live
  | retry stored failed =>
    cases stored
    rw [failed] at closed
    cases closed
  | cancelled => rfl
  | cancel stored live =>
    cases stored
    rw [live] at closed
    cases closed

theorem staged_of_closed (closed : run.status.isClosed)
    (h : engine.work now call (some run) world = (ending, staged, world')) : staged = none := by
  cases work_eq_iff.mp h with
  | refused | settled => rfl
  | kept granted      => cases granted.eq_nothing closed
  | driven granted    => cases granted.eq_nothing closed

theorem staged_status (h : engine.work now call loaded world = (ending, some run, world')) :
    run.status ≠ .running := by
  generalize hs : some run = staged at h
  cases work_eq_iff.mp h with
  | refused | settled => cases hs
  | kept granted =>
    cases hs
    cases granted with
    | cancel => rintro ⟨⟩
  | @driven workflow begun after result _ _ pass =>
    cases eq_of_stage hs.symm
    cases closed : begun.status.isClosed
    case false =>
      have left := Workflow.execute_status closed pass
      cases result <;> simp [stage] at hs <;> rw [left _ rfl] <;> rintro ⟨⟩
    case true =>
      rw [Workflow.execute_of_closed closed] at pass
      cases pass
      intro running
      rw [running] at closed
      cases closed

-- What a run may be stored as later: a closed run only as it is.
structure Becomes (run later : Run) : Prop where
  status : later.status ∈ run.status.successors
  same   : run.status.isClosed → later = run

def Remains (run : Run) (loaded : Option Run) : Prop :=
  ∃ later, loaded = some later ∧ Becomes run later

theorem keeps_remains (h : run.status ≠ .running) (engine : Engine ω) (call : Call) :
    engine.Keeps (Remains run) call := by
  rintro now _ world ⟨later, rfl, becomes⟩
  rcases work : engine.work now call (some later) world with ⟨ending, _ | staged, world'⟩
  case none => exact ⟨later, rfl, becomes⟩
  case some =>
    refine ⟨staged, rfl, ?_⟩
    cases closed : run.status.isClosed
    case false => exact ⟨RunStatus.mem_successors h closed (staged_status work), by simp [closed]⟩
    case true =>
      cases becomes.same closed
      cases staged_of_closed closed work

def Parked (loaded : Option Run) : Prop :=
  ∀ run, loaded = some run → run.status ≠ .running

theorem keeps_parked (engine : Engine ω) (call : Call) : engine.Keeps Parked call := by
  intro now loaded world parked
  rcases work : engine.work now call loaded world with ⟨ending, _ | staged, world'⟩
  case none => exact parked
  case some =>
    rintro _ ⟨⟩
    exact staged_status work

-- No run is stored while it is under way, and a run that is stored as finished or cancelled is at
-- rest for good: it is neither changed nor driven again, whatever is done to its store.
structure State.Lifecycle (s : State ω) (runId : String) (run : Run) : Prop where
  parked   : run.status ≠ .running
  moves    : ∀ acts : List (Act ω), ∃ later,
    (acts.foldl State.act s).store.get? runId = some later ∧ later.status ∈ run.status.successors
  frozen   : run.status.isClosed → ∀ acts : List (Act ω),
    (acts.foldl State.act s).store.get? runId = some run
  undriven : run.status.isClosed → ∀ acts, ∀ pass ∈ s.passesOf acts, pass.runId ≠ runId

-- All runs that are stored after any acts have their lifecycles, if no run was stored under way in
-- the beginning.
theorem State.lifecycle_of_stored {first : State ω} {acts : List (Act ω)}
    (parked : Parked (first.store.get? runId))
    (stored : (acts.foldl State.act first).store.get? runId = some run) :
    (acts.foldl State.act first).Lifecycle runId run := by
  have parked : run.status ≠ .running :=
    acts_keep (fun _ _ engine call _ _ => keeps_parked engine call) parked run stored
  have begun : Remains run ((acts.foldl State.act first).store.get? runId) :=
    ⟨run, stored, RunStatus.self_mem_successors parked, fun _ => rfl⟩
  have kept (acts : List (Act ω)) : ∀ act ∈ acts, ∀ engine call, act.Makes engine call →
      call.runId = runId → engine.Keeps (Remains run) call :=
    fun _ _ engine call _ _ => keeps_remains parked engine call
  refine { parked, moves := ?moves, frozen := ?frozen, undriven := ?undriven }
  case moves =>
    intro acts
    have ⟨later, stored, becomes⟩ := acts_keep (kept acts) begun
    exact ⟨later, stored, becomes.status⟩
  case frozen =>
    intro closed acts
    have ⟨later, stored, becomes⟩ := acts_keep (kept acts) begun
    rw [stored, becomes.same closed]
  case undriven =>
    intro closed acts pass hm hr
    have ⟨_, _, _, _, _, _, _, _, ⟨later, stored, becomes⟩, drives⟩ :=
      mem_passesOf (kept acts) begun hm hr
    cases becomes.same closed
    cases drives with
    | intro _ granted => cases (stored ▸ granted).eq_nothing closed

namespace Parcel

def send : HandlerM Unit StepOutcome := do
  match ← HandlerM.waitMillis "delivery" 86400000 with
  | some entry => return .suspend entry
  | none       => return .done

def depot : Engine Unit :=
  ⟨.ofPairs [("parcel", ⟨"parcel", "send", .null, .ofPairs [("send", send)]⟩)], .standard⟩

def sent : List (Act Unit) :=
  [.call depot (.run "p" (Run.create "parcel" "send")),
    .clock ⟨86400000000000, by decide, by decide⟩,
    .sweep depot]

def opening : State Unit :=
  ⟨.empty, (), .epoch⟩

theorem handed_over :
    Parked (opening.store.get? "p") ∧
      ∃ run, (sent.foldl State.act opening).store.get? "p" = some run ∧ run.status = .finished ∧
        (sent.foldl State.act opening).Lifecycle "p" run := by
  have finished : ((sent.foldl State.act opening).store.get? "p").map Run.status =
      some .finished := by decide +kernel
  have ⟨run, stored, finished⟩ := Option.map_eq_some_iff.mp finished
  exact ⟨nofun, run, stored, finished, State.lifecycle_of_stored nofun stored⟩

end Parcel

end Engine

end DurableWorkflow
