import DurableWorkflow.Proofs.Flow.Effects

namespace DurableWorkflow

section Update

variable {ω : Type} {flow : Flow} {tasks : Dict (StepTask ω)} {exchange made : Exchange ω}
  {visit : List (Exchange ω)} {step : Step} {value result : Json}

inductive Step.TaskReturns (step : Step) (tasks : Dict (StepTask ω)) (exchange : Exchange ω) :
    Json → Prop
  | intro {params schema : Option Json} {task : StepTask ω} {value : Json}
      (kind     : step.kind = .task params schema)
      (given    : tasks.get? step.id = some task)
      (asked    : exchange.request =
        .action step.id (fun _ => true) (task exchange.run.state params))
      (returned : exchange.invocations = [.returned value]) : TaskReturns step tasks exchange value

structure Step.Returned (step : Step) (tasks : Dict (StepTask ω)) (visit : List (Exchange ω))
    (made : Exchange ω) : Prop where
  proper  : made.after.state.isNull = false
  invoked : ∃ exchange ∈ visit, step.TaskReturns tasks exchange made.after.state

structure Step.Recalled (step : Step) (visit : List (Exchange ω)) (made : Exchange ω) : Prop where
  task   : step.kind.isTask
  proper : made.after.state.isNull = false
  known  : ∀ exchange ∈ visit ++ [made],
    exchange.run.memo.get? step.id = some made.after.state

structure Step.Merged (step : Step) (made : Exchange ω) : Prop where
  event : ∃ input output, step.kind = .waitForEvent input output
  given : ∃ filter payload, .event (resumeId step.id step.id) filter (some payload) ∈
    made.run.pending ∧ made.after.state = Flow.absorb payload made.run.state

-- What changes the state of a run of a flow: the result of a task, which takes the place of the
-- state whenever its step is visited, and the payload of an event. Since a task is run only once, a
-- loop that comes back to its step puts back the result that it had.
structure Flow.Updates (flow : Flow) (tasks : Dict (StepTask ω)) (history : List (Event ω))
    (stored : Option Run) : Prop where
  changes  : ∀ before made after, history = before ++ .exchange made :: after →
    made.after.state ≠ made.run.state →
      ∃ step ∈ flow.steps, step.id = made.run.currentStep ∧
        (step.Returned tasks (Event.visit before) made ∨
          step.Recalled (Event.visit before) made ∨ step.Merged made)
  revisits : ∀ before run next after, history = before ++ .leave run next :: after →
    ∀ step ∈ flow.steps, step.kind.isTask → step.id = run.currentStep →
      ∀ opening since result, Event.visit before = opening :: since →
        opening.run.memo.get? step.id = some result →
          (∀ exchange ∈ opening :: since, exchange.invocations = []) ∧
            (run.leave next).state = if result.isNull then opening.run.state else result
  between  : ∀ before event next after, history = before ++ event :: next :: after →
    next.run.state = event.after.state
  last     : ∀ run, stored = some run → ∀ event ∈ history.getLast?, run.state = event.after.state

end Update

namespace Exchange

variable {ω : Type} {made : Exchange ω} {state : Json}

theorem state_of_unwritten (h : made.request.state? = none) : made.after.state = made.run.state :=
  made.request.answer_state h

theorem state_of_written (h : made.request.state? = some state)
    (live : made.run.status.isClosed = false) : made.after.state = state := by
  obtain ⟨now, request, run, world⟩ := made
  cases request <;> cases h
  case setState =>
    simp [after, Request.answer, Run.setState, show run.status.isClosed = _ from live]
  case putState => rfl

end Exchange

theorem Run.leave_state (next : Option String) (run : Run) :
    (run.leave next).state = run.state := by
  cases next <;> rfl

namespace Flow.Handles

variable {ω : Type} {flow : Flow} {tasks : Dict (StepTask ω)} {exchange made : Exchange ω}
  {visit : List (Exchange ω)} {step : Step} {value result : Json}

theorem taskReturns (h : flow.Handles tasks (.exchange exchange)) (distinct : flow.stepIds.Nodup)
    (hm : step ∈ flow.steps) (current : step.id = exchange.run.currentStep)
    (success : value ∈ exchange.successes step.id) : step.TaskReturns tasks exchange value := by
  have returned := Exchange.invocations_of_success success
  have idle (unkeyed : exchange.request.key? = none) : False := by
    rw [Exchange.invocations_eq_nil unkeyed] at returned
    cases returned
  cases h with
  | keeps unkeyed        => exact (idle unkeyed).elim
  | adopts _ _ _ adopts  => exact (idle (by rw [adopts]; rfl)).elim
  | merges _ _ _ merges  => exact (idle (by rw [merges]; rfl)).elim
  | performs hm' here kind given asked =>
    cases List.inj_on_of_nodup_map distinct hm hm' (current.trans here.symm)
    exact .intro kind given asked returned

theorem changes (h : flow.Handles tasks (.exchange made)) (live : made.run.status.isClosed = false)
    (distinct : flow.stepIds.Nodup) (recollects : Recollects visit made.run)
    (within : ∀ exchange ∈ visit, flow.Handles tasks (.exchange exchange) ∧
      exchange.run.currentStep = made.run.currentStep)
    (changed : made.after.state ≠ made.run.state) :
    ∃ step ∈ flow.steps, step.id = made.run.currentStep ∧
      (step.Returned tasks visit made ∨ step.Recalled visit made ∨ step.Merged made) := by
  cases h with
  | keeps _ stateless => exact absurd (Exchange.state_of_unwritten stateless) changed
  | performs _ _ _ _ asked =>
    exact absurd (Exchange.state_of_unwritten (by rw [asked]; rfl)) changed
  | @adopts _ step value hm current task adopts proper known =>
    have adopted : made.after.state = value :=
      Exchange.state_of_written (by rw [adopts]; rfl) live
    subst adopted
    refine ⟨step, hm, current, ?_⟩
    rcases recollects.learnt step.id _ known with ⟨exchange, hv, success⟩ | throughout
    · have ⟨handles, stays⟩ := within exchange hv
      exact .inl ⟨proper, exchange, hv,
        handles.taskReturns distinct hm (current.trans stays.symm) success⟩
    · exact .inr (.inl ⟨task, proper, List.forall_mem_append.mpr
        ⟨throughout, List.forall_mem_singleton.mpr known⟩⟩)
  | @merges _ step input output filter payload hm current kind merges delivered =>
    have merged : made.after.state = absorb payload made.run.state :=
      Exchange.state_of_written (by rw [merges]; rfl) live
    exact ⟨step, hm, current,
      .inr (.inr ⟨⟨input, output, kind⟩, filter, payload, delivered, merged⟩)⟩

theorem invocations_eq_nil (h : flow.Handles tasks (.exchange made))
    (current : step.id = made.run.currentStep)
    (known : made.run.memo.get? step.id = some result) : made.invocations = [] := by
  cases h with
  | keeps unkeyed => exact Exchange.invocations_eq_nil unkeyed
  | performs _ here _ _ asked =>
    rw [Exchange.invocations_of_action asked, here, ← current, known]
    rfl
  | adopts _ _ _ adopts => exact Exchange.invocations_eq_nil (by rw [adopts]; rfl)
  | merges _ _ _ merges => exact Exchange.invocations_eq_nil (by rw [merges]; rfl)

theorem still (h : flow.Handles tasks (.exchange made)) (distinct : flow.stepIds.Nodup)
    (hm : step ∈ flow.steps) (task : step.kind.isTask) (current : step.id = made.run.currentStep)
    (known : made.run.memo.get? step.id = some result) (null : result.isNull) :
    made.after.state = made.run.state := by
  cases h with
  | keeps _ stateless      => exact Exchange.state_of_unwritten stateless
  | performs _ _ _ _ asked => exact Exchange.state_of_unwritten (by rw [asked]; rfl)
  | adopts _ here _ _ proper found =>
    rw [here, ← current, known] at found
    cases found
    rw [null] at proper
    cases proper
  | merges hm' here kind =>
    cases List.inj_on_of_nodup_map distinct hm hm' (current.trans here.symm)
    rw [kind] at task
    cases task

theorem settled {run : Run} {next : Option String} (h : flow.Handles tasks (.leave run next))
    (distinct : flow.stepIds.Nodup) (hm : step ∈ flow.steps) (task : step.kind.isTask)
    (current : step.id = run.currentStep) (known : run.memo.get? step.id = some result)
    (proper : result.isNull = false) : run.state = result := by
  cases h with | leaves hm' here settled => ?_
  cases List.inj_on_of_nodup_map distinct hm hm' (current.trans here.symm)
  have ⟨_, found, adopted⟩ := settled task
  cases known.symm.trans found
  exact adopted proper

theorem revisited {run : Run} {next : Option String} {opening : Exchange ω}
    (h : flow.Handles tasks (.leave run next)) (distinct : flow.stepIds.Nodup)
    (recollects : Recollects visit run)
    (within : ∀ exchange ∈ visit, flow.Handles tasks (.exchange exchange) ∧
      exchange.run.currentStep = run.currentStep)
    (hm : step ∈ flow.steps) (task : step.kind.isTask) (current : step.id = run.currentStep)
    (opens : opening ∈ visit.head?) (known : opening.run.memo.get? step.id = some result) :
    (∀ exchange ∈ visit, exchange.invocations = []) ∧
      (run.leave next).state = if result.isNull then opening.run.state else result := by
  have ⟨known, throughout⟩ := recollects.known opening opens _ _ known
  have stays (exchange : Exchange ω) (hv : exchange ∈ visit) :
      step.id = exchange.run.currentStep := current.trans (within exchange hv).2.symm
  rw [Run.leave_state]
  refine ⟨fun exchange hv => ?_, ?_⟩
  · exact (within exchange hv).1.invocations_eq_nil (stays exchange hv) (throughout exchange hv)
  cases null : result.isNull
  case false => exact h.settled distinct hm task current known null
  case true =>
    have still (exchange : Exchange ω) (hv : exchange ∈ visit) :
        exchange.after.state = exchange.run.state :=
      (within exchange hv).1.still distinct hm task (stays exchange hv) (throughout exchange hv)
        null
    exact (recollects.still still opening (List.mem_of_mem_head? opens)).symm

end Flow.Handles

namespace Engine

variable {ω : Type} {engine : Engine ω} {flow : Flow} {tasks : Dict (StepTask ω)}
  {workflow : Workflow ω} {first : State ω} {runId : String} {happenings : List (Happening ω)}

-- Whatever is done to a run of a flow, its state comes from its tasks and from its events. A loop
-- that comes back to a task that was run before puts back the result of the task.
theorem State.updates_accounted
    (compiled : Workflow.ofFlow flow tasks = .returned (.ok workflow))
    (new : first.store.get? runId = none)
    (made : ∀ happening ∈ happenings, ∀ engine call, happening.Makes engine call →
      call.runId = runId →
        engine.workflows.get? flow.id = some workflow ∧ call.Instantiates workflow) :
    flow.Updates tasks (first.history runId happenings)
      ((happenings.foldl State.happen first).store.get? runId) := by
  have distinct := (Workflow.ofFlow_compiles compiled).wellFormed.distinct
  have fresh : ∀ happening ∈ happenings, ∀ engine call, happening.Makes engine call →
      call.runId = runId → call.Fresh :=
    fun happening hm engine call makes addressed =>
      (made happening hm engine call makes addressed).2.fresh
  have leads : Leads none (first.history runId happenings) _ := new ▸ history_leads fresh
  have handles (event : Event ω) (he : event ∈ first.history runId happenings) :
      flow.Handles tasks event := handles_of_mem_history compiled new made he
  have live (event : Event ω) (he : event ∈ first.history runId happenings) :
      event.run.status.isClosed = false := live_of_mem_history he
  generalize first.history runId happenings = history at leads handles live ⊢
  generalize (happenings.foldl State.happen first).store.get? runId = stored at leads ⊢
  have visited (before : List (Event ω)) (event : Event ω) (after : List (Event ω))
      (cut : history = before ++ event :: after) (exchange : Exchange ω)
      (hv : exchange ∈ Event.visit before) : flow.Handles tasks (.exchange exchange) ∧
        exchange.run.currentStep = event.run.currentStep := by
    have accounts : Accounts (Event.visit before) event.run := (cut ▸ leads).accounts_event
    refine ⟨handles _ ?_, accounts.position exchange hv⟩
    rw [cut]
    exact List.mem_append_left _ (Event.mem_of_mem_visit hv)
  refine {
    changes  := ?changes
    revisits := ?revisits
    between  := ?between
    last     := ?last
  }
  case changes =>
    rintro before made after rfl changed
    have ⟨_, _, _, _, chronicle⟩ := leads.exists_chronicle (by simp)
    have here : .exchange made ∈ before ++ .exchange made :: after := by simp
    exact (handles _ here).changes (live _ here) distinct chronicle.recollects_event
      (visited before (.exchange made) after rfl) changed
  case revisits =>
    rintro before run next after rfl step hm task current opening since result visit known
    have ⟨_, _, _, _, chronicle⟩ := leads.exists_chronicle (by simp)
    have opens : opening ∈ (Event.visit before).head? := by rw [visit]; rfl
    rw [← visit]
    exact (handles (.leave run next) (by simp)).revisited distinct chronicle.recollects_event
      (visited before (.leave run next) after rfl) hm task current opens known
  case between =>
    rintro before event next after rfl
    have ⟨_, _, _, _, chronicle⟩ := leads.exists_chronicle (by simp)
    exact chronicle.state_next
  case last =>
    rintro run rfl event hl
    obtain ⟨before, rfl⟩ := List.getLast?_eq_some_iff.mp hl
    have ⟨_, _, _, same, chronicle⟩ := leads.exists_chronicle (by simp)
    cases same
    exact chronicle.state_last

end Engine

namespace Flow.Review

open Engine

def flow : Flow where
  id := "review"
  name := "Review"
  version := "1"
  globalStateSchema := none
  state := none
  steps := [
    ⟨"start", "", .begin, none⟩,
    ⟨"draft", "", .task none none, none⟩,
    ⟨"comment", "", .waitForEvent none none, none⟩]
  connections := [
    ⟨"1", "start", "draft", none⟩,
    ⟨"2", "draft", "comment", none⟩,
    ⟨"3", "comment", "draft", none⟩]
  metadata := none

def text : Json :=
  .ofMembers [("text", .string "draft")]

def tasks : Dict (StepTask Nat) :=
  .ofPairs [("draft", fun _ _ count => (.returned text, count + 1))]

def workflow : Workflow Nat :=
  match Workflow.ofFlow flow tasks with
  | .returned (.ok workflow) => workflow
  | _                        => ⟨"", "", .null, .empty⟩

def desk : Engine Nat :=
  ⟨.ofPairs [("review", workflow)], .standard⟩

def dawn : State Nat :=
  ⟨.empty, 0, .epoch⟩

def comment : Json :=
  .ofMembers [("note", .string "too long")]

def commenting : List (Happening Nat) :=
  [.act (.call desk (.run "r" workflow.instantiate)),
    .act (.call desk (.resume "r" "comment:comment" (some comment)))]

theorem compiled : Workflow.ofFlow flow tasks = .returned (.ok workflow) := by
  have covered : flow.Covered tasks := by
    rw [Covered]
    decide +kernel
  obtain ⟨_, h⟩ := Workflow.exists_ofFlow (validate_eq_nil_iff.mp (by decide +kernel)) covered
  rw [workflow, h]

theorem commenting_made : ∀ happening ∈ commenting, ∀ engine call, happening.Makes engine call →
    call.runId = "r" →
      engine.workflows.get? flow.id = some workflow ∧ call.Instantiates workflow := by
  intro happening hm engine call makes _
  simp only [commenting, List.mem_cons, List.not_mem_nil, or_false] at hm
  rcases hm with rfl | rfl <;> rcases makes with ⟨⟨⟩⟩
  case inl => exact ⟨rfl, _, rfl⟩
  case inr => exact ⟨rfl, trivial⟩

def history : List (Event Nat) :=
  dawn.history "r" commenting

theorem comments_accounted :
    Workflow.ofFlow flow tasks = .returned (.ok workflow) ∧ dawn.store.get? "r" = none ∧
      (history.filterMap Event.exchange?).flatMap (Exchange.successes "draft") = [text] ∧
      flow.Updates tasks history ((commenting.foldl State.happen dawn).store.get? "r") :=
  ⟨compiled, rfl, by decide +kernel, State.updates_accounted compiled rfl commenting_made⟩

end Flow.Review

section Expectations

variable {ω : Type} (flow : Flow) (tasks : Dict (StepTask ω)) (history : List (Event ω))

-- What one might expect instead: that a task has its say only when it is run.
def Flow.ChangesWhenRun : Prop :=
  ∀ before made after, history = before ++ .exchange made :: after →
    made.after.state ≠ made.run.state →
      ∃ step ∈ flow.steps, step.id = made.run.currentStep ∧
        (step.Returned tasks (Event.visit before) made ∨ step.Merged made)

-- The same for the second visit of a task: that it loses nothing of what came after the first.
def Flow.KeepsOnRevisit : Prop :=
  ∀ before run next after, history = before ++ .leave run next :: after →
    ∀ step ∈ flow.steps, step.kind.isTask → step.id = run.currentStep →
      ∀ opening since result, Event.visit before = opening :: since →
        opening.run.memo.get? step.id = some result → (run.leave next).state = opening.run.state

end Expectations

namespace Flow.Review

theorem history_cut {i : Nat} {p : Event Nat → Bool} (h : history[i]?.any p) :
    ∃ event, p event ∧ history = history.take i ++ event :: history.drop (i + 1) := by
  obtain ⟨event, found, holds⟩ := (Option.any_eq_true _ _).mp h
  obtain ⟨hi, rfl⟩ := List.getElem?_eq_some_iff.mp found
  exact ⟨_, holds, by rw [List.getElem_cons_drop, List.take_append_drop]⟩

theorem comment_lost :
    Workflow.ofFlow flow tasks = .returned (.ok workflow) ∧ ¬ flow.ChangesWhenRun tasks history ∧
      ¬ flow.KeepsOnRevisit history := by
  have draft : ∀ step ∈ flow.steps, step.id = "draft" → step.kind = .task none none := by
    decide +kernel
  refine ⟨compiled, fun changes => ?_, fun keeps => ?_⟩
  · obtain ⟨made | _, holds, cut⟩ : ∃ event, _ ∧ history = history.take 13 ++ event :: _ :=
      history_cut (p := fun
        | .exchange made => made.run.currentStep = "draft" && made.after.state ≠ made.run.state
        | .leave ..      => false) (by decide +kernel)
    case leave => cases holds
    have ⟨here, changed⟩ : made.run.currentStep = "draft" ∧ made.after.state ≠ made.run.state := by
      simpa using holds
    have unwritten : ∀ exchange ∈ Event.visit (history.take 13), exchange.invocations.isEmpty := by
      decide +kernel
    obtain ⟨step, hm, current, returned | merged⟩ := changes _ _ _ cut changed
    · obtain ⟨exchange, hv, _, _, _, invoked⟩ := returned.invoked
      have idle := unwritten exchange hv
      rw [invoked] at idle
      cases idle
    · have ⟨_, _, kind⟩ := merged.event
      cases (draft step hm (current.trans here)).symm.trans kind
  · obtain ⟨_ | ⟨run, next⟩, holds, cut⟩ : ∃ event, _ ∧ history = history.take 14 ++ event :: _ :=
      history_cut (p := fun
        | .exchange _  => false
        | .leave run _ => run.currentStep = "draft" && run.state = text) (by decide +kernel)
    case exchange => cases holds
    have ⟨here, restored⟩ : run.currentStep = "draft" ∧ run.state = text := by simpa using holds
    have commented : ∀ opening ∈ (Event.visit (history.take 14)).head?,
        opening.run.memo.get? "draft" = some text ∧ opening.run.state ≠ text := by decide +kernel
    obtain ⟨opening, since, visit⟩ :=
      List.exists_cons_of_ne_nil (show Event.visit (history.take 14) ≠ [] by decide +kernel)
    have ⟨known, state⟩ := commented opening (by rw [visit]; rfl)
    refine state ?_
    rw [← restored, ← Run.leave_state next run]
    exact (keeps _ _ _ _ cut ⟨"draft", "", .task none none, none⟩ (by decide +kernel) rfl here.symm
      opening since text visit known).symm

end Flow.Review

end DurableWorkflow
