import DurableWorkflow.Proofs.Flow.Visit

namespace DurableWorkflow

inductive ReturnsAtLast {ω : Type} (thunk : ω → ActionResult × ω) (value : Json) : ω → Prop
  | atOnce {world world' : ω} (returned : thunk world = (.returned value, world')) :
    ReturnsAtLast thunk value world
  | later {world world' : ω} {message : String} (failed : thunk world = (.failed message, world'))
      (rest : ReturnsAtLast thunk value world') : ReturnsAtLast thunk value world

-- Another task may fail for some time before it returns what this one returns.
def StepTask.Falters {ω : Type} (task : StepTask Unit) (faltering : StepTask ω) : Prop :=
  ∀ state params value, (task state params ()).1 = .returned value →
    ∀ world, ReturnsAtLast (faltering state params) value world

def Falter {ω : Type} (tasks : Dict (StepTask Unit)) (faltering : Dict (StepTask ω)) : Prop :=
  ∀ step task, tasks.get? step = some task →
    ∃ other, faltering.get? step = some other ∧ task.Falters other

-- The run without the failures in its audit log.
def Run.withoutFailures (run : Run) : Run :=
  { run with auditLog := run.auditLog.map (·.filter (·.outcome ≠ .failure)) }

namespace Walk

variable {flow : Flow} {walk : Walk} {now : Timestamp} {runId : String}

def withoutFailures (walk : Walk) : Walk :=
  { walk with auditLog := walk.auditLog.map (·.filter (·.outcome ≠ .failure)) }

@[simp]
theorem withoutFailures_status : walk.withoutFailures.status = walk.status :=
  rfl

@[simp]
theorem withoutFailures_position : walk.withoutFailures.position = walk.position :=
  rfl

@[simp]
theorem withoutFailures_state : walk.withoutFailures.state = walk.state :=
  rfl

@[simp]
theorem withoutFailures_memo : walk.withoutFailures.memo = walk.memo :=
  rfl

@[simp]
theorem withoutFailures_wait : walk.withoutFailures.wait = walk.wait :=
  rfl

@[simp]
theorem withoutFailures_awaits {id : String} : walk.withoutFailures.awaits id = walk.awaits id :=
  rfl

theorem withoutFailures_launch : walk.withoutFailures.launch = walk.launch.withoutFailures :=
  rfl

theorem withoutFailures_audit_failure :
    (walk.audit now .failure).withoutFailures = walk.withoutFailures := by
  rw [audit, withoutFailures, withoutFailures]
  cases walk.auditLog <;> simp

theorem withoutFailures_memoize {result : Json} :
    (walk.memoize now result).withoutFailures = walk.withoutFailures.memoize now result := by
  rw [memoize, memoize, audit, audit, withoutFailures, withoutFailures]
  cases walk.auditLog <;> simp

theorem withoutFailures_adopt {result : Json} :
    (walk.adopt result).withoutFailures = walk.withoutFailures.adopt result := by
  rw [adopt, adopt]
  split <;> rfl

theorem withoutFailures_conclude {move : Outcome Move} :
    walk.withoutFailures.conclude move =
      ((walk.conclude move).1, (walk.conclude move).2.withoutFailures) := by
  rcases move with (_ | _ | _ | _) | _ <;> rfl

theorem conclude_kept {move : Outcome Move} (goes : (walk.conclude move).1 = none) :
    (walk.conclude move).2.status = walk.status ∧ (walk.conclude move).2.error = walk.error := by
  rcases move with (_ | _ | _ | _) | _ <;> cases goes
  exact ⟨rfl, rfl⟩

theorem launch_fail_audit {error : Error} (running : walk.status = .running)
    (fine : walk.error = none) :
    ((walk.audit now .failure).fail error).launch = walk.audit now .failure := by
  rw [audit, fail, launch, ← running, ← fine]

end Walk

def PassEnd.arrives : PassEnd → Bool
  | .finished | .suspended _            => true
  | .failed _ | .panicked | .unfinished => false

namespace Flow

variable {ω : Type} {flow : Flow} {steady : Dict (StepTask Unit)} {tasks : Dict (StepTask ω)}
  {now : Timestamp} {walk after : Walk} {world world' : ω} {runId : String} {budget : Budget}

inductive Gets (flow : Flow) (tasks : Dict (StepTask ω)) (now : Timestamp) :
    Walk → ω → Outcome Move → Walk → ω → Prop
  | atOnce {walk after : Walk} {world world' : ω} {move : Outcome Move}
      (visit : flow.visit tasks now walk world = (move, after, world')) :
      Gets flow tasks now walk world move after world'
  | later {walk after : Walk} {world world₁ world' : ω} {move : Outcome Move} {error : Error}
      (visit : flow.visit tasks now walk world =
        (.returned (.fail error), walk.audit now .failure, world₁))
      (rest : Gets flow tasks now (walk.audit now .failure) world₁ move after world') :
      Gets flow tasks now walk world move after world'

def RunsAt (flow : Flow) (tasks : Dict (StepTask ω)) (position : String) (params : Option Json)
    (task : StepTask ω) : Prop :=
  (∃ step schema, flow.step? position = some step ∧ step.kind = .task params schema) ∧
    tasks.get? position = some task

theorem RunsAt.visit_eq {params : Option Json} {task : StepTask ω}
    (h : flow.RunsAt tasks walk.position params task) :
    flow.visit tasks now walk world = flow.visitTask task params now walk world := by
  obtain ⟨⟨step, schema, hs, kind⟩, given⟩ := h
  simp only [visit, hs, visitKind, kind, given]

-- By induction on the failures: each leaves state and memo as they were, so that the task is asked
-- for the same again.
theorem RunsAt.gets {params : Option Json} {task : StepTask ω} {thunk : ω → ActionResult × ω}
    {value : Json} (h : flow.RunsAt tasks walk.position params task)
    (new : walk.memo.get? walk.position = none) (ht : task walk.state params = thunk)
    (returns : ReturnsAtLast thunk value world) :
    ∃ after world',
      flow.Gets tasks now walk world (.returned (flow.onward walk.position)) after world' ∧
        after.withoutFailures = (walk.withoutFailures.memoize now value).adopt value := by
  induction returns generalizing walk with
  | @atOnce world world' returned =>
    have visit : flow.visit tasks now walk world =
        (.returned (flow.onward walk.position), (walk.memoize now value).adopt value, world') := by
      rw [h.visit_eq, visitTask]
      simp only [new, ht, returned]
    refine ⟨_, _, .atOnce visit, ?_⟩
    rw [Walk.withoutFailures_adopt, Walk.withoutFailures_memoize]
  | @later world world₁ message failed rest ih =>
    have visit : flow.visit tasks now walk world =
        (.returned (.fail (.actionFailed walk.position message)), walk.audit now .failure,
          world₁) := by
      rw [h.visit_eq, visitTask]
      simp only [new, ht, failed]
    have again : flow.RunsAt tasks (walk.audit now .failure).position params task := h
    obtain ⟨after, world', gets, same⟩ := ih again new ht
    refine ⟨after, world', .later visit gets, same.trans ?_⟩
    rw [Walk.withoutFailures_audit_failure]

theorem RunsAt.visit_gets {params : Option Json} {task : StepTask Unit} {other : StepTask ω}
    {move : Outcome Move} {visited : Walk}
    (h : flow.RunsAt tasks walk.position params other) (falters : task.Falters other)
    (hv : flow.visitTask task params now walk.withoutFailures () = (move, visited, ()))
    (goes : (visited.conclude move).1.all PassEnd.arrives) (world : ω) :
    ∃ after world', flow.Gets tasks now walk world move after world' ∧
      after.withoutFailures = visited := by
  simp only [visitTask, Walk.withoutFailures_memo, Walk.withoutFailures_position,
    Walk.withoutFailures_state] at hv
  cases known : walk.memo.get? walk.position <;> simp only [known] at hv
  case some result =>
    cases hv
    have visit : flow.visit tasks now walk world =
        (.returned (flow.onward walk.position), walk.adopt result, world) := by
      rw [h.visit_eq, visitTask]
      simp only [known]
    exact ⟨_, _, .atOnce visit, Walk.withoutFailures_adopt⟩
  case none =>
    rcases returned : task walk.state params () with ⟨value | _ | _, _⟩ <;>
      simp only [returned] at hv <;> cases hv
    case returned => exact h.gets known rfl (falters _ _ _ (congrArg Prod.fst returned) world)
    case failed   => cases goes
    case panicked => cases goes

-- At steps without a task nothing can fail that would not always fail.
theorem visitKind_withoutFailures {kind : StepKind} (other : kind.isTask = false) (world : ω) :
    flow.visitKind steady now kind walk.withoutFailures () =
      ((flow.visitKind tasks now kind walk world).1,
        (flow.visitKind tasks now kind walk world).2.1.withoutFailures, ()) := by
  cases kind <;> simp only [visitKind]
  case task => cases other
  case resumeAfter duration => cases Duration.parse duration <;> rfl
  case waitForEvent =>
    rw [visitEvent, visitEvent, Walk.withoutFailures_wait]
    split <;> rfl
  all_goals rfl

-- A walk whose task may fail gets where the walk gets whose task does not.
theorem visit_gets (falter : Falter steady tasks) {move : Outcome Move} {visited : Walk}
    (hv : flow.visit steady now walk.withoutFailures () = (move, visited, ()))
    (goes : (visited.conclude move).1.all PassEnd.arrives) (world : ω) :
    ∃ after world', flow.Gets tasks now walk world move after world' ∧
      after.withoutFailures = visited := by
  rw [visit, Walk.withoutFailures_position] at hv
  cases hs : flow.step? walk.position <;> simp only [hs] at hv
  case none =>
    cases hv
    cases goes
  case some step =>
    cases kind : step.kind
    case task params schema =>
      rw [kind, visitKind, Walk.withoutFailures_position] at hv
      cases given : steady.get? walk.position <;> simp only [given] at hv
      case none =>
        cases hv
        cases goes
      case some task =>
        obtain ⟨other, given, falters⟩ := falter _ task given
        exact RunsAt.visit_gets ⟨⟨step, schema, hs, kind⟩, given⟩ falters hv goes world
    all_goals
      have visit : flow.visit tasks now walk world =
          flow.visitKind tasks now step.kind walk world := by simp only [visit, hs]
      rw [visitKind_withoutFailures (by rw [kind]; rfl) world, ← visit] at hv
      cases hv
      exact ⟨_, _, .atOnce rfl, rfl⟩

theorem Gets.kept {move : Outcome Move} (gets : flow.Gets tasks now walk world move after world') :
    walk.Kept after := by
  induction gets with
  | @atOnce walk after world _ _ visit =>
    have kept : walk.Kept (flow.visit tasks now walk world).2.1 := visit_kept
    rw [visit] at kept
    exact kept
  | later visit rest ih => exact { ih with }

inductive Arrives (flow : Flow) (tasks : Dict (StepTask ω)) (now : Timestamp) (budget : Budget) :
    Nat → Walk → ω → PassEnd → Walk → ω → Prop
  | atOnce {left : Nat} {walk after : Walk} {world world' : ω} {ending : PassEnd}
      (travel : flow.travel tasks now budget left walk world = (ending, after, world')) :
      Arrives flow tasks now budget left walk world ending after world'
  | later {left : Nat} {walk failed after : Walk} {world world₁ world' : ω} {ending : PassEnd}
      {error : Error}
      (travel : flow.travel tasks now budget left walk world = (.failed error, failed, world₁))
      (fails : failed.status = .failed)
      (rest :
        Arrives flow tasks now budget budget.rounds failed.launch world₁ ending after world') :
      Arrives flow tasks now budget left walk world ending after world'

theorem Arrives.of_round {left : Nat} {next : Walk} {world₁ : ω} {ending : PassEnd}
    (hr : flow.round tasks now walk world = (none, next, world₁))
    (arrives : flow.Arrives tasks now budget left next world₁ ending after world') :
    flow.Arrives tasks now budget (left + 1) walk world ending after world' := by
  have onward : flow.travel tasks now budget (left + 1) walk world =
      flow.travel tasks now budget left next world₁ := by rw [travel, hr]
  cases arrives with
  | atOnce travel           => exact .atOnce (onward.trans travel)
  | later travel fails rest => exact .later (onward.trans travel) fails rest

theorem Gets.arrives {visited : Walk} {world₁ : ω} {least left : Nat} {move : Outcome Move}
    {ending : PassEnd} {P : Walk → Prop}
    (gets : flow.Gets tasks now walk world move visited world₁)
    (running : walk.status = .running) (fine : walk.error = none)
    (enough : least < left) (rounds : least < budget.rounds)
    (goes : ∀ walk world left, least ≤ left →
      flow.round tasks now walk world = concluded (move, visited, world₁) →
        ∃ after world',
          flow.Arrives tasks now budget (left + 1) walk world ending after world' ∧ P after) :
    ∃ after world',
      flow.Arrives tasks now budget left walk world ending after world' ∧ P after := by
  induction gets generalizing left with
  | atOnce visit =>
    obtain ⟨left, rfl⟩ := Nat.exists_eq_add_one_of_ne_zero (Nat.ne_zero_of_lt enough)
    exact goes _ _ left (Nat.le_of_lt_succ enough) (congrArg concluded visit)
  | @later walk visited world world₁ _ move error visit rest ih =>
    obtain ⟨left, rfl⟩ := Nat.exists_eq_add_one_of_ne_zero (Nat.ne_zero_of_lt enough)
    have travel : flow.travel tasks now budget (left + 1) walk world =
        (.failed error, (walk.audit now .failure).fail error, world₁) := by
      rw [Flow.travel, round, visit]
      rfl
    obtain ⟨after, world', arrives, last⟩ := ih running fine rounds goes
    refine ⟨after, world', .later travel rfl ?_, last⟩
    rw [Walk.launch_fail_audit running fine]
    exact arrives

-- A task may fail some number of times before it returns. A walk that is launched again for as long
-- as it fails arrives where it would have arrived at once if no task had failed, with nothing but
-- the failures in its audit log to tell of it.
theorem arrives_of_travel (falter : Falter steady tasks) {least left : Nat} {ending : PassEnd}
    (ht : flow.travel steady now budget least walk.withoutFailures () = (ending, after, ()))
    (arrives : ending.arrives) (running : walk.status = .running) (fine : walk.error = none)
    (enough : least ≤ left) (rounds : least ≤ budget.rounds) (world : ω) :
    ∃ last world', flow.Arrives tasks now budget left walk world ending last world' ∧
      last.withoutFailures = after := by
  induction least generalizing walk world left
  case zero => cases budget <;> cases ht <;> cases arrives
  case succ least ih =>
    rcases hv : flow.visit steady now walk.withoutFailures () with ⟨move, visited, _⟩
    rcases hc : visited.conclude move with ⟨ended, next⟩
    simp only [travel, round, hv, concluded, hc] at ht
    have goes : (visited.conclude move).1.all PassEnd.arrives := by
      rw [hc]
      cases ended
      case none => rfl
      case some => cases ht; exact arrives
    obtain ⟨visited, world₁, gets, rfl⟩ := visit_gets falter hv goes world
    rw [Walk.withoutFailures_conclude, Prod.mk.injEq] at hc
    obtain ⟨hc, rfl⟩ := hc
    refine gets.arrives running fine enough rounds fun other world left enough hr => ?_
    rw [concluded, hc] at hr
    cases ended
    case none =>
      obtain ⟨status, error⟩ := visited.conclude_kept hc
      obtain ⟨last, world', arrives, same⟩ := ih ht (status.trans (gets.kept.status.trans running))
        (error.trans (gets.kept.error.trans fine)) enough (Nat.le_of_succ_le rounds) world₁
      exact ⟨last, world', .of_round hr arrives, same⟩
    case some =>
      cases ht
      refine ⟨_, world₁, .atOnce ?_, rfl⟩
      rw [travel, hr]

end Flow

end DurableWorkflow
