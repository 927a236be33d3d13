import DurableWorkflow.Proofs.Engine.Relapse
import DurableWorkflow.Proofs.Workflow.Yield

namespace DurableWorkflow

variable {ω : Type}

def Pass.performed (pass : Pass ω) : List (Request ω) :=
  Exchange.performed pass.exchanges

theorem Pass.eq_of_yields {pass : Pass ω} {runId : String} {workflow : Workflow ω}
    {now : Timestamp} {budget : Budget} {run after : Run} {world : ω} {ending : PassEnd}
    {requests : List (Request ω)} (here : pass = ⟨runId, workflow, now, budget, run, world⟩)
    (live : run.status.isClosed = false)
    (h : workflow.Yields now budget budget.rounds run.launch world ending requests after) :
    pass.ending = ending ∧ pass.performed = requests ∧ pass.after = after := by
  have ⟨world', ends⟩ := h.ends
  have ended : workflow.execute now budget run world = (ending, after, world') := by
    rw [Workflow.execute, live]
    exact ends
  subst here
  refine ⟨congrArg (·.1) ended, ?_, congrArg (·.2.1) ended⟩
  rw [performed, exchanges, Workflow.passExchanges, live]
  exact h.performs

structure Performance (ω : Type) where
  clock   : Instant
  request : Request ω

namespace Engine

namespace State

-- The actions that are performed for a run in an act, also in a pass that is broken off.
def performed (runId : String) (s : State ω) (act : Act ω) : List (Request ω) :=
  (ofRun runId (s.passes act)).flatMap Pass.performed

def performances (runId : String) : State ω → List (Act ω) → List (Performance ω)
  | _, []          => []
  | s, act :: rest =>
    (s.performed runId act).map (⟨s.clock, ·⟩) ++ (s.act act).performances runId rest

inductive Prompts (s : State ω) : Act ω → Engine ω → Call → Prop
  | call {engine : Engine ω} {call : Call} : Prompts s (.call engine call) engine call
  | sweep {engine : Engine ω} {timer : DueTimer} (due : timer ∈ s.store.listDue s.now) :
    Prompts s (.sweep engine) engine (.resume timer.runId timer.resumeId none)

theorem Prompts.makes {s : State ω} {act : Act ω} {engine : Engine ω} {call : Call}
    (h : s.Prompts act engine call) : act.Makes engine call := by
  cases h
  case call  => exact .call
  case sweep => exact .sweep

end State

theorem State.performances_append {runId : String} {s : State ω} {earlier later : List (Act ω)} :
    s.performances runId (earlier ++ later) =
      s.performances runId earlier ++ (earlier.foldl State.act s).performances runId later := by
  induction earlier generalizing s
  case nil => rfl
  case cons act rest ih =>
    rw [List.cons_append, performances, performances, ih, List.append_assoc]
    rfl

variable {engine : Engine ω} {now : Timestamp} {store last : Store} {world : ω} {call : Call}
  {runId : String} {workflow : Workflow ω} {run : Run} {pass : Pass ω} {passes : List (Pass ω)}
  {timers : List DueTimer} {requests : List (Request ω)} {I : List (Request ω) → Option Run → Prop}

theorem ofRun_cons_of_eq (h : pass.runId = runId) :
    ofRun runId (pass :: passes) = pass :: ofRun runId passes := by
  simp [ofRun, h]

theorem ofRun_cons_of_ne (h : pass.runId ≠ runId) :
    ofRun runId (pass :: passes) = ofRun runId passes := by
  simp [ofRun, h]

theorem stage_of_returns (returns : pass.Returns) :
    (stage pass.after pass.ending).2 = some pass.after := by
  rcases ended : pass.ending
  case panicked   => exact absurd ended returns.1
  case unfinished => exact absurd ended returns.2
  all_goals rfl

section Granted

variable (granted : engine.Grants now (store.get? call.runId) call (.drive workflow run))
include granted

theorem passes_of_drive :
    engine.passes now call store world =
      [⟨call.runId, workflow, now, engine.config.budget, run, world⟩] := by
  rw [passes, prepare_eq_ok_iff.mpr granted]

variable (same : pass = ⟨call.runId, workflow, now, engine.config.budget, run, world⟩)
include same

theorem get?_perform_of_drive (returns : pass.Returns) :
    (engine.perform now call store world).2.1.get? call.runId = some pass.after := by
  have staged := stage_of_returns returns
  subst same
  rw [perform_eq, work_of_drive granted]
  dsimp only
  rw [Store.get?_commit_self]
  exact congrArg (Option.or · (store.get? call.runId)) staged

end Granted

theorem State.performed_of_drive {s : State ω}
    (granted : engine.Grants s.now (s.store.get? call.runId) call (.drive workflow run))
    (same : pass = ⟨call.runId, workflow, s.now, engine.config.budget, run, s.world⟩) :
    s.performed call.runId (.call engine call) = pass.performed := by
  have addressed : pass.runId = call.runId := congrArg Pass.runId same
  rw [performed, State.passes, passes_of_drive granted, ← same, ofRun_cons_of_eq addressed]
  simp [ofRun]

-- What holds of a run and of the actions that were performed for it in an act so far, holds still
-- when a call was made.
structure Carries (engine : Engine ω) (now : Timestamp) (I : List (Request ω) → Option Run → Prop)
    (call : Call) : Prop where
  passes : ∀ requests loaded pass, I requests loaded → engine.Drives now loaded call pass →
    pass.Returns ∧ I (requests ++ pass.performed) (some pass.after)
  keeps  : ∀ requests loaded run, I requests loaded →
    engine.Grants now loaded call (.keep run) → I requests (some run)

theorem Carries.perform (carried : engine.Carries now I call)
    (holds : I requests (store.get? call.runId)) :
    I (requests ++ (ofRun call.runId (engine.passes now call store world)).flatMap Pass.performed)
      ((engine.perform now call store world).2.1.get? call.runId) := by
  rcases prepared : engine.prepare now store call with error | workflow | run | _
  case ok.drive run =>
    have granted := prepare_eq_ok_iff.mp prepared
    have ⟨returns, holds⟩ := carried.passes _ _ _ holds (.intro world granted)
    rw [passes_of_drive granted, get?_perform_of_drive granted rfl returns]
    simpa [ofRun] using holds
  case ok.keep =>
    rw [Engine.perform, Engine.passes, prepared]
    simpa [ofRun] using carried.keeps _ _ _ holds (prepare_eq_ok_iff.mp prepared)
  all_goals
    rw [Engine.perform, Engine.passes, prepared]
    simpa [ofRun] using holds

theorem Sweep.carries (h : engine.Sweep now timers store passes last)
    (carried : ∀ timer ∈ timers, timer.runId = runId →
      engine.Carries now I (.resume timer.runId timer.resumeId none))
    (holds : I requests (store.get? runId)) :
    I (requests ++ (ofRun runId passes).flatMap Pass.performed) (last.get? runId) := by
  induction h generalizing requests with
  | done => simpa [ofRun] using holds
  | refused _ ih => exact ih (fun timer hm => carried timer (.tail _ hm)) holds
  | @passed timer _ _ _ pass _ drives returns _ ih =>
    have later := fun timer hm => carried timer (.tail _ hm)
    by_cases addressed : timer.runId = runId
    case pos =>
      subst addressed
      have addressed : pass.runId = timer.runId := drives.runId_eq
      obtain ⟨_, holds⟩ := (carried timer (.head _) rfl).passes _ _ _ holds drives
      rw [ofRun_cons_of_eq addressed, List.flatMap_cons, ← List.append_assoc]
      refine ih later ?_
      rwa [Dict.get?_insert, if_pos rfl]
    case neg =>
      rw [ofRun_cons_of_ne (drives.runId_eq.trans_ne addressed)]
      refine ih later ?_
      rwa [Dict.get?_insert, if_neg addressed]
  | @broken timer _ _ pass drives breaks =>
    by_cases addressed : timer.runId = runId
    case pos =>
      subst addressed
      exact absurd ((carried timer (.head _) rfl).passes _ _ _ holds drives).1 breaks
    case neg =>
      rw [ofRun_cons_of_ne (drives.runId_eq.trans_ne addressed)]
      simpa [ofRun] using holds

theorem State.act_carries {s : State ω} {act : Act ω}
    (carried : ∀ engine call, s.Prompts act engine call → call.runId = runId →
      engine.Carries s.now I call)
    (holds : I [] (s.store.get? runId)) :
    I (s.performed runId act) ((s.act act).store.get? runId) := by
  rw [State.performed]
  cases act
  case clock => exact holds
  case sweep engine =>
    exact (fire_sweep 0).carries (fun timer due => carried engine _ (.sweep due)) holds
  case call engine call =>
    by_cases addressed : call.runId = runId
    case pos =>
      subst addressed
      exact (carried engine call .call rfl).perform holds
    case neg =>
      have elsewhere : ofRun runId (engine.passes s.now call s.store s.world) = [] := by
        refine List.filter_eq_nil_iff.mpr fun pass hm => ?_
        simpa using (mem_passes_call hm).runId_eq.trans_ne addressed
      have same : (s.act (.call engine call)).store.get? runId = s.store.get? runId :=
        perform_elsewhere rfl addressed
      rw [State.passes, elsewhere, same]
      exact holds

end Engine

end DurableWorkflow
