import DurableWorkflow.Proofs.Handler.Frame
import DurableWorkflow.Proofs.Handler.Running
import DurableWorkflow.Proofs.Workflow.Event
import DurableWorkflow.Proofs.Workflow.Round

namespace DurableWorkflow

structure Handling (ω : Type) where
  handler : Handler ω
  run     : Run
  world   : ω

namespace Handling

variable {ω : Type}

def result (now : Timestamp) (handling : Handling ω) : Outcome (Except Error StepOutcome) :=
  (Script.run now handling.handler.run handling.run handling.world).1

def exchanges (now : Timestamp) (handling : Handling ω) : List (Exchange ω) :=
  Script.exchanges now handling.handler.run handling.run handling.world

def Advances (now : Timestamp) (handling : Handling ω) : Prop :=
  ∃ next, handling.result now = .returned (.ok (.advance next))

end Handling

def PassEnd.exceeded : PassEnd → Bool
  | .failed (.stepLimitExceeded ..) => true
  | _                               => false

namespace Workflow

variable {ω : Type} {workflow : Workflow ω} {now : Timestamp} {run after : Run} {world world' : ω}
  {n m : Nat} {budget : Budget} {ending : PassEnd}

-- No handler says of its own accord that a limit was exceeded.
def Modest (workflow : Workflow ω) (now : Timestamp) : Prop :=
  ∀ step handler, workflow.handler? step = some handler → ∀ run world limit at',
    (Script.run now handler.run run world).1 ≠ .returned (.error (.stepLimitExceeded limit at'))

def march (workflow : Workflow ω) (now : Timestamp) : Nat → Run → ω → Option PassEnd × Run × ω
  | 0, run, world => (none, run, world)
  | left + 1, run, world =>
    match workflow.round now run world with
    | (none, run, world)        => workflow.march now left run world
    | (some ending, run, world) => (some ending, run, world)

def marchHandlings (workflow : Workflow ω) (now : Timestamp) : Nat → Run → ω → List (Handling ω)
  | 0, _, _ => []
  | left + 1, run, world =>
    match workflow.enter run with
    | .error _    => []
    | .ok handler =>
      ⟨handler, run, world⟩ ::
        match workflow.round now run world with
        | (none, run, world) => workflow.marchHandlings now left run world
        | (some _, _, _)     => []

def handlings (workflow : Workflow ω) (now : Timestamp) (budget : Budget) (run : Run) (world : ω) :
    List (Handling ω) :=
  if run.status.isClosed then [] else workflow.marchHandlings now budget.rounds run.launch world

theorem rounds_eq_march :
    workflow.rounds now budget n run world =
      match workflow.march now n run world with
      | (none, run, world)        =>
        ((budget.exhausted run).1, (budget.exhausted run).2, world)
      | (some ending, run, world) => (ending, run, world) := by
  induction n generalizing run world
  case zero => rfl
  case succ n ih =>
    rw [rounds_succ, march]
    rcases workflow.round now run world with ⟨_ | _, after, world'⟩
    case none => exact ih
    case some => rfl

-- A pass is a march of rounds that is broken off when the budget is used up, and a march of `n + m`
-- rounds is one of `n` rounds and, if it comes to no end, one of `m` rounds from there.
theorem march_add :
    workflow.march now (n + m) run world =
      match workflow.march now n run world with
      | (none, run, world)        => workflow.march now m run world
      | (some ending, run, world) => (some ending, run, world) := by
  induction n generalizing run world
  case zero => rw [Nat.zero_add, march]
  case succ n ih =>
    rw [Nat.succ_add, march, march]
    rcases workflow.round now run world with ⟨_ | _, after, world'⟩
    case none => exact ih
    case some => rfl

theorem marchHandlings_add :
    workflow.marchHandlings now (n + m) run world =
      workflow.marchHandlings now n run world ++
        match workflow.march now n run world with
        | (none, run, world) => workflow.marchHandlings now m run world
        | (some _, _, _)     => [] := by
  induction n generalizing run world
  case zero => rw [Nat.zero_add, march, marchHandlings, List.nil_append]
  case succ n ih =>
    rw [Nat.succ_add, march, marchHandlings, marchHandlings]
    cases entered : workflow.enter run
    case error =>
      rw [round, entered]
      rfl
    case ok handler =>
      rcases workflow.round now run world with ⟨_ | _, after, world'⟩
      case none => exact congrArg _ ih
      case some => rfl

theorem length_marchHandlings_le : (workflow.marchHandlings now n run world).length ≤ n := by
  induction n generalizing run world
  case zero => exact Nat.le_refl 0
  case succ n ih =>
    rw [marchHandlings]
    cases workflow.enter run
    case error => exact Nat.zero_le _
    case ok handler =>
      rcases workflow.round now run world with ⟨_ | _, after, world'⟩
      case none => exact Nat.succ_le_succ ih
      case some => exact Nat.succ_le_succ (Nat.zero_le n)

theorem roundsExchanges_eq :
    workflow.roundsExchanges now n run world =
      (workflow.marchHandlings now n run world).flatMap (·.exchanges now) := by
  induction n generalizing run world
  case zero => rfl
  case succ n ih =>
    rw [roundsExchanges_succ, marchHandlings, stepExchanges]
    cases entered : workflow.enter run
    case error =>
      rw [round, entered]
      rfl
    case ok handler =>
      rw [List.flatMap_cons]
      refine congrArg _ ?_
      rcases workflow.round now run world with ⟨_ | _, after, world'⟩
      case none => exact ih
      case some => rfl

theorem round_onwards (h : workflow.round now run world = (none, after, world')) :
    (∃ handler, workflow.enter run = .ok handler ∧
      Handling.result now ⟨handler, run, world⟩ = .returned (.ok (.advance after.currentStep))) ∧
      after.status = run.status ∧ after.error = run.error := by
  rw [round] at h
  cases entered : workflow.enter run <;> simp only [entered] at h
  case error => cases h
  case ok handler =>
    have served : run.Served (Script.run now handler.run run world).2.1 := Script.run_served _ _ _
    rw [Handler.round] at h
    rcases ran : Script.run now handler.run run world with ⟨(_ | next | _ | _) | _, last, world₁⟩ <;>
      rw [ran] at h served <;> cases h
    refine ⟨⟨handler, rfl, ?_⟩, served.status, served.error⟩
    rw [Handling.result, ran]

structure Onwards (workflow : Workflow ω) (now : Timestamp) (n : Nat) (run : Run) (world : ω)
    (after : Run) : Prop where
  called : (workflow.marchHandlings now n run world).length = n
  moved  : ∀ handling ∈ workflow.marchHandlings now n run world, handling.Advances now
  status : after.status = run.status
  error  : after.error = run.error

theorem march_onwards (h : workflow.march now n run world = (none, after, world')) :
    workflow.Onwards now n run world after := by
  induction n generalizing run world
  case zero =>
    cases h
    exact ⟨rfl, List.forall_mem_nil _, rfl, rfl⟩
  case succ n ih =>
    rw [march] at h
    rcases hr : workflow.round now run world with ⟨_ | _, next, world₁⟩ <;> rw [hr] at h
    case some => cases h
    case none =>
      have ⟨⟨handler, entered, advances⟩, status, error⟩ := round_onwards hr
      have later := ih h
      have calls : workflow.marchHandlings now (n + 1) run world =
          ⟨handler, run, world⟩ :: workflow.marchHandlings now n next world₁ := by
        rw [marchHandlings, entered, hr]
      exact {
        called := by rw [calls, List.length_cons, later.called]
        moved  := by rw [calls]; exact List.forall_mem_cons.mpr ⟨⟨_, advances⟩, later.moved⟩
        status := later.status.trans status
        error  := later.error.trans error
      }

theorem round_modest (modest : workflow.Modest now)
    (h : workflow.round now run world = (some ending, after, world')) : ending.exceeded = false := by
  rw [round] at h
  cases entered : workflow.enter run <;> simp only [entered] at h
  case error error =>
    cases h
    rw [enter] at entered
    split at entered
    case isTrue => cases entered; rfl
    case isFalse =>
      split at entered <;> cases entered
      rfl
  case ok handler =>
    have modest := modest run.currentStep handler (handler?_of_enter entered) run world
    rw [Handler.round] at h
    rcases ran : Script.run now handler.run run world with
      ⟨(error | _ | _ | _) | _, last, world₁⟩ <;> rw [ran] at h modest <;> cases h
    case returned.error => cases error <;> first | rfl | exact absurd rfl (modest _ _)
    all_goals rfl

theorem exists_march_of_march
    (h : workflow.march now n run world = (some ending, after, world')) :
    ∃ m < n, ∃ stood world₁, workflow.march now m run world = (none, stood, world₁) ∧
      workflow.round now stood world₁ = (some ending, after, world') := by
  induction n generalizing run world
  case zero => cases h
  case succ n ih =>
    rw [march] at h
    rcases hr : workflow.round now run world with ⟨_ | _, next, world₂⟩ <;> rw [hr] at h
    case none =>
      obtain ⟨m, less, stood, world₁, marched, round⟩ := ih h
      refine ⟨m + 1, Nat.succ_lt_succ less, stood, world₁, ?_, round⟩
      rw [march, hr]
      exact marched
    case some =>
      cases h
      exact ⟨0, Nat.succ_pos n, run, world, rfl, hr⟩

theorem exists_round_of_march (h : workflow.march now n run world = (some ending, after, world')) :
    ∃ run world, workflow.round now run world = (some ending, after, world') :=
  have ⟨_, _, run, world, _, round⟩ := exists_march_of_march h
  ⟨run, world, round⟩

theorem march_modest (modest : workflow.Modest now)
    (h : workflow.march now n run world = (some ending, after, world')) :
    ending.exceeded = false := by
  have ⟨_, _, round⟩ := exists_round_of_march h
  exact round_modest modest round

theorem execute_of_march_end (budget : Budget) (live : run.status.isClosed = false)
    (enough : n ≤ budget.rounds)
    (h : workflow.march now n run.launch world = (some ending, after, world')) :
    workflow.execute now budget run world = (ending, after, world') := by
  have ⟨more, total⟩ := Nat.exists_eq_add_of_le enough
  rw [execute, live, total]
  simp only [Bool.false_eq_true, if_false, rounds_eq_march, march_add, h]

theorem execute_of_march (budget : Budget) (live : run.status.isClosed = false)
    (h : workflow.march now budget.rounds run.launch world = (none, after, world')) :
    workflow.execute now budget run world =
      ((budget.exhausted after).1, (budget.exhausted after).2, world') := by
  rw [execute, live]
  simp only [Bool.false_eq_true, if_false, rounds_eq_march, h]

theorem handlings_of_live (live : run.status.isClosed = false) :
    workflow.handlings now budget run world =
      workflow.marchHandlings now budget.rounds run.launch world := by
  rw [handlings, live]
  rfl

-- Two passes that come to the same, but for the number that is given if the limit was exceeded.
inductive SameButLimit (limit limit' : Nat) : PassEnd × Run × ω → PassEnd × Run × ω → Prop
  | same {ending : PassEnd} {run : Run} {world : ω} (within : ending.exceeded = false) :
    SameButLimit limit limit' (ending, run, world) (ending, run, world)
  | exceeded {step : String} {run : Run} {world : ω} :
    SameButLimit limit limit'
      (.failed (.stepLimitExceeded limit step), run.fail (.stepLimitExceeded limit step), world)
      (.failed (.stepLimitExceeded limit' step), run.fail (.stepLimitExceeded limit' step), world)

-- A pass that exceeded its limit of `n` handlers left a run from which another pass goes on.
structure GoesOn (workflow : Workflow ω) (now : Timestamp) (n : Nat) (run : Run) (world : ω)
    (failed : Run) (world' : ω) : Prop where
  broken : workflow.execute now (.limited n) run world =
    (.failed (.stepLimitExceeded n failed.currentStep), failed, world')
  status : failed.status = .failed
  passes : ∀ m, SameButLimit m (n + m) (workflow.execute now (.limited m) failed world')
    (workflow.execute now (.limited (n + m)) run world)
  calls  : ∀ m, workflow.handlings now (.limited (n + m)) run world =
    workflow.handlings now (.limited n) run world ++
      workflow.handlings now (.limited m) failed world'

structure Budgeted (workflow : Workflow ω) (now : Timestamp) (n : Nat) (run : Run) (world : ω) :
    Prop where
  atMost : (workflow.handlings now (.limited n) run world).length ≤ n
  -- A limit that is not exceeded makes no difference to a pass with a higher limit or with none.
  within : (workflow.execute now (.limited n) run world).1.exceeded = false →
    ∀ budget : Budget, n ≤ budget.rounds →
      workflow.execute now budget run world = workflow.execute now (.limited n) run world ∧
        workflow.handlings now budget run world = workflow.handlings now (.limited n) run world
  beyond : (workflow.execute now (.limited n) run world).1.exceeded →
    (workflow.handlings now (.limited n) run world).length = n ∧
      (∀ handling ∈ workflow.handlings now (.limited n) run world, handling.Advances now) ∧
      ∃ failed world', workflow.GoesOn now n run world failed world'
  exchanges : ∀ budget : Budget, workflow.passExchanges now budget run world =
    (workflow.handlings now budget run world).flatMap (·.exchanges now)

-- A run that was broken off under way starts its next pass as it was.
theorem launch_fail (status : after.status = .running) (error : after.error = none)
    (reason : Error) : (after.fail reason).launch = after := by
  obtain ⟨id, workflowType, _, _, currentStep, state, memo, pending, auditLog⟩ := after
  cases status
  cases error
  rfl

theorem goesOn_of_march (modest : workflow.Modest now) (live : run.status.isClosed = false)
    (h : workflow.march now n run.launch world = (none, after, world')) :
    workflow.GoesOn now n run world (after.fail (.stepLimitExceeded n after.currentStep)) world' := by
  have onwards := march_onwards h
  have again : (after.fail (.stepLimitExceeded n after.currentStep)).launch = after :=
    launch_fail onwards.status onwards.error _
  have whole (m : Nat) : workflow.march now (n + m) run.launch world =
      workflow.march now m after world' := by
    rw [march_add, h]
  refine {
    broken := by rw [execute_of_march (.limited n) live h]; rfl
    status := rfl
    passes := fun m => ?passes
    calls  := fun m => ?calls
  }
  case passes =>
    rcases hm : workflow.march now m after world' with ⟨_ | ending, last, world₂⟩
    case none =>
      rw [execute_of_march (.limited m) rfl (again.symm ▸ hm),
        execute_of_march (.limited (n + m)) live ((whole m).trans hm)]
      exact .exceeded
    case some =>
      rw [execute_of_march_end (.limited m) rfl (Nat.le_refl m)
          (again.symm ▸ hm),
        execute_of_march_end (.limited (n + m)) live (Nat.le_refl _) ((whole m).trans hm)]
      exact .same (march_modest modest hm)
  case calls =>
    rw [handlings_of_live live, handlings_of_live live, handlings_of_live rfl, again]
    change workflow.marchHandlings now (n + m) _ _ = _
    rw [marchHandlings_add, h]
    rfl

-- A limit that is not exceeded makes no difference, and a pass that exceeded its limit can be gone
-- on with: the limits add up.
theorem budget_composes (modest : workflow.Modest now) (live : run.status.isClosed = false)
    (n : Nat) (world : ω) : workflow.Budgeted now n run world := by
  refine { atMost := ?atMost, within := ?within, beyond := ?beyond, exchanges := ?exchanges }
  case atMost =>
    rw [handlings_of_live live]
    exact length_marchHandlings_le
  case within =>
    intro kept budget enough
    rcases h : workflow.march now n run.launch world with ⟨_ | ending, after, world'⟩
    case none =>
      rw [execute_of_march (.limited n) live h] at kept
      cases kept
    case some =>
      have ⟨more, total⟩ := Nat.exists_eq_add_of_le enough
      rw [execute_of_march_end budget live enough h,
        execute_of_march_end (.limited n) live (Nat.le_refl n) h]
      refine ⟨rfl, ?_⟩
      rw [handlings_of_live live, handlings_of_live live, total, marchHandlings_add, h]
      exact List.append_nil _
  case beyond =>
    intro exceeded
    rcases h : workflow.march now n run.launch world with ⟨_ | ending, after, world'⟩
    case some =>
      rw [execute_of_march_end (.limited n) live (Nat.le_refl n) h,
        march_modest modest h] at exceeded
      cases exceeded
    case none =>
      have onwards := march_onwards h
      rw [handlings_of_live live]
      exact ⟨onwards.called, onwards.moved, _, world', goesOn_of_march modest live h⟩
  case exchanges =>
    intro budget
    rw [passExchanges, handlings_of_live live, live]
    exact roundsExchanges_eq

namespace Stairs

def climb (next : String) : HandlerM Nat StepOutcome := do
  HandlerM.put "at" (.string next)
  return .advance next

def ring : HandlerM Nat StepOutcome := do
  let _ ← HandlerM.action "bell" (fun _ => true) fun rung => (.returned .null, rung + 1)
  return .done

def stairs : Workflow Nat :=
  ⟨"stairs", "ground", .empty,
    .ofPairs [("ground", climb "first"), ("first", climb "top"), ("top", ring)]⟩

theorem result_climb {now : Timestamp} {next : String} {run : Run} {rung : Nat} :
    (Script.run now (climb next).run run rung).1 = .returned (.ok (.advance next)) :=
  rfl

theorem result_ring {now : Timestamp} {run : Run} {rung : Nat} :
    (Script.run now ring.run run rung).1 = .returned (.ok .done) := by
  rw [ring, HandlerM.run_bind, HandlerM.run_action, Run.performAction]
  cases run.memo.get? "bell" <;> rfl

theorem stairs_modest (now : Timestamp) : stairs.Modest now := by
  intro step handler known run rung limit at' exceeded
  have listed : (step, handler) ∈
      [("ground", climb "first"), ("first", climb "top"), ("top", ring)] :=
    Dict.mem_of_get?_ofPairs known
  simp only [List.mem_cons, List.not_mem_nil, or_false, Prod.mk.injEq] at listed
  obtain ⟨_, rfl⟩ | ⟨_, rfl⟩ | ⟨_, rfl⟩ := listed
  · cases result_climb.symm.trans exceeded
  · cases result_climb.symm.trans exceeded
  · cases result_ring.symm.trans exceeded

theorem climbed_in_two_passes :
    stairs.Modest default ∧ stairs.instantiate.status.isClosed = false ∧
      (stairs.execute default (.limited 2) stairs.instantiate 0).1 =
        .failed (.stepLimitExceeded 2 "top") ∧
      (stairs.execute default (.limited 3) stairs.instantiate 0).1 = .finished ∧
      stairs.Budgeted default 2 stairs.instantiate 0 :=
  ⟨stairs_modest default, rfl, rfl, rfl, budget_composes (stairs_modest default) rfl 2 0⟩

end Stairs

end Workflow

end DurableWorkflow
