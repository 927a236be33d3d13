import DurableWorkflow.Proofs.Flow.Compilation
import DurableWorkflow.Proofs.Flow.Handlers
import DurableWorkflow.Proofs.Flow.Visit
import DurableWorkflow.Proofs.Run.Entry
import DurableWorkflow.Proofs.Workflow.Round

namespace DurableWorkflow

namespace Walk

variable {flow : Flow} {runId : String} {walk : Walk} {pending : List ResumeEntry}

@[simp]
theorem snapshot_workflowType : (walk.snapshot flow runId).workflowType = flow.id :=
  rfl

@[simp]
theorem snapshot_status : (walk.snapshot flow runId).status = walk.status :=
  rfl

@[simp]
theorem snapshot_currentStep : (walk.snapshot flow runId).currentStep = walk.position :=
  rfl

@[simp]
theorem snapshot_state : (walk.snapshot flow runId).state = walk.state :=
  rfl

@[simp]
theorem snapshot_memo : (walk.snapshot flow runId).memo = walk.memo :=
  rfl

@[simp]
theorem resolve_status {now : Timestamp} {payload : Option Json} :
    (walk.resolve now payload).status = walk.status :=
  rfl

theorem entry_id {step : String} {wait : Wait} : (wait.entry step).id = resumeId step step := by
  cases wait <;> rfl

theorem entry_isResolved {step : String} {wait : Wait} :
    (wait.entry step).isResolved = wait.isResolved := by
  cases wait <;> rfl

theorem belongsTo_of_mem {step : String} {waits : List Wait} {entry : ResumeEntry}
    (h : entry ∈ waits.map (Wait.entry step)) : entry.belongsTo step := by
  have ⟨wait, _, he⟩ := List.mem_map.mp h
  exact ResumeEntry.belongsTo_of_id (he ▸ entry_id)

theorem belongsTo_of_mem_singleton {step : String} {wait : Wait} {entry : ResumeEntry}
    (h : entry ∈ [wait.entry step]) : entry.belongsTo step :=
  belongsTo_of_mem (show entry ∈ [wait].map (Wait.entry step) from h)

def snapshotWith (flow : Flow) (runId : String) (pending : List ResumeEntry) (walk : Walk) : Run :=
  { walk.snapshot flow runId with pending }

-- Moving along a connection. The entries of the step are dropped, whatever became of them.
theorem concludeVisit_along {connection : Option Connection}
    (h : ∀ entry ∈ pending, entry.belongsTo walk.position) :
    (walk.snapshotWith flow runId pending).concludeVisit walk.position
        (.returned (.ok (Flow.advanceOrDone (connection.map (·.target))))) =
      ((walk.conclude (.returned (.along connection))).1,
        (walk.conclude (.returned (.along connection))).2.snapshot flow runId) := by
  have hl : (walk.snapshotWith flow runId pending).leaveStep walk.position =
      walk.snapshotWith flow runId [] := by
    rw [Run.leaveStep, snapshotWith, List.filter_eq_nil_iff.mpr fun entry hm => by simp [h entry hm]]
    rfl
  cases connection
  case none =>
    refine Run.concludeVisit_done.trans ?_
    rw [hl]
    rfl
  case some connection =>
    refine Run.concludeVisit_advance.trans ?_
    rw [hl]
    rfl

end Walk

namespace Flow

variable {flow : Flow} {stepId : String}

theorem onward_eq : flow.onward stepId = .along ((flow.outgoing stepId).head?) := by
  rw [onward, outgoing, List.head?_filter]

theorem merge_object {given members : List (String × Json)} :
    (Json.object members).merge given =
      .object (given.foldl (fun members (key, value) => Entries.insert key value members) members) := by
  induction given generalizing members
  case nil               => rfl
  case cons member rest ih => exact ih

theorem merge_eq_self {given : List (String × Json)} {json : Json}
    (h : ∀ key value, json.put key value = json) : json.merge given = json := by
  induction given
  case nil => rfl
  case cons member rest ih => exact (congrArg (Json.merge rest) (h member.1 member.2)).trans ih

theorem absorb_eq (payload state : Json) : absorb payload state = mergePayload payload state := by
  cases payload
  case object given =>
    cases state
    case object members => exact merge_object.symm
    all_goals exact (merge_eq_self fun _ _ => rfl).symm
  all_goals rfl

def shown {ω α : Type} (flow : Flow) (runId : String) : α × Walk × ω → α × Run × ω
  | (result, walk, world) => (result, walk.snapshot flow runId, world)

variable {ω : Type} {tasks : Dict (StepTask ω)} {now : Timestamp} {walk : Walk} {world : ω}
  {runId : String} {connection : Option Connection}

theorem round_along {handler : Handler ω} {after : Walk} (pending : List ResumeEntry) {world' : ω}
    (h : Script.run now handler.run (walk.snapshot flow runId) world =
      (.returned (.ok (advanceOrDone (connection.map (·.target)))),
        after.snapshotWith flow runId pending, world'))
    (stays : after.position = walk.position)
    (belongs : ∀ entry ∈ pending, entry.belongsTo after.position) :
    Handler.round now handler (walk.snapshot flow runId) world =
      flow.shown runId (concluded (.returned (.along connection), after, world')) := by
  simp only [Handler.round, h, concluded, shown]
  rw [Walk.snapshot_currentStep, ← stays, Walk.concludeVisit_along belongs]

theorem round_onward {handler : Handler ω} {after : Walk} (pending : List ResumeEntry) {world' : ω}
    (h : Script.run now handler.run (walk.snapshot flow runId) world =
      (.returned (.ok (advanceOrDone (flow.successor? walk.position))),
        after.snapshotWith flow runId pending, world'))
    (stays : after.position = walk.position)
    (belongs : ∀ entry ∈ pending, entry.belongsTo after.position) :
    Handler.round now handler (walk.snapshot flow runId) world =
      flow.shown runId (concluded (.returned (flow.onward walk.position), after, world')) := by
  rw [onward_eq]
  exact round_along pending h stays belongs

theorem round_fail {handler : Handler ω} {after : Walk} {error : Error} {world' : ω}
    (h : Script.run now handler.run (walk.snapshot flow runId) world =
      (.returned (.error error), after.snapshot flow runId, world')) :
    Handler.round now handler (walk.snapshot flow runId) world =
      flow.shown runId (concluded (.returned (.fail error), after, world')) := by
  simp only [Handler.round, h]
  rfl

theorem round_panicked {handler : Handler ω} {after : Walk} {world' : ω}
    (h : Script.run now handler.run (walk.snapshot flow runId) world =
      (.panicked, after.snapshot flow runId, world')) :
    Handler.round now handler (walk.snapshot flow runId) world =
      flow.shown runId (concluded (.panicked, after, world')) := by
  simp only [Handler.round, h]
  rfl

theorem round_stay {handler : Handler ω} {wait : Wait}
    (h : Script.run now handler.run (walk.snapshot flow runId) world =
      (.returned (.ok (.suspend (wait.entry walk.position))),
        { walk with wait := some wait }.snapshot flow runId, world)) :
    Handler.round now handler (walk.snapshot flow runId) world =
      flow.shown runId (concluded (.returned (.stay wait), walk, world)) := by
  simp only [Handler.round, h]
  rfl

theorem round_pass (connection : Option Connection) :
    Handler.round now (passHandler (connection.map (·.target))) (walk.snapshot flow runId) world =
      flow.shown runId (concluded (.returned (.along connection), walk, world)) :=
  round_along _ rfl rfl fun _ => Walk.belongsTo_of_mem

theorem round_returned {task : StepTask ω} {params : Option Json} (after : Walk)
    (output : ActionOutput) {world' : ω}
    (h : (walk.snapshot flow runId).performAction now walk.position (fun _ => true)
      (task walk.state params) world = (.returned (.ok output), after.snapshot flow runId, world'))
    (live : after.status.isClosed = false) (stays : after.position = walk.position) :
    Handler.round now (taskHandler walk.position task params (flow.successor? walk.position))
        (walk.snapshot flow runId) world =
      flow.shown runId
        (concluded (.returned (flow.onward walk.position), after.adopt output.value, world')) := by
  have hs : (after.snapshot flow runId).setState output.value =
      (.ok (), { after with state := output.value }.snapshot flow runId) := by
    rw [Run.setState, Walk.snapshot_status, live]
    rfl
  refine round_onward (after.wait.toList.map (Wait.entry after.position))
    ?ran ?stays ?belongs
  case ran =>
    rw [run_taskHandler, Walk.snapshot_state, h, Walk.adopt]
    dsimp only
    rw [hs]
    split <;> rfl
  case stays =>
    rw [Walk.adopt]
    split <;> exact stays
  case belongs =>
    rw [Walk.adopt]
    split <;> exact fun _ => Walk.belongsTo_of_mem

theorem round_task {task : StepTask ω} {params : Option Json} (live : walk.status.isClosed = false) :
    Handler.round now (taskHandler walk.position task params (flow.successor? walk.position))
        (walk.snapshot flow runId) world =
      flow.shown runId (concluded (flow.visitTask task params now walk world)) := by
  rw [visitTask]
  cases hm : walk.memo.get? walk.position
  case some result =>
    exact round_returned walk ⟨result, false⟩
      (by rw [Run.performAction, Walk.snapshot_memo, hm]; rfl) live rfl
  case none =>
    rcases ht : task walk.state params world with ⟨result | message | _, world'⟩
    case returned =>
      exact round_returned (walk.memoize now result) ⟨result, true⟩
        (by rw [Run.performAction, Walk.snapshot_memo, hm, ht]; rfl) live rfl
    case failed =>
      refine round_fail ?_
      rw [run_taskHandler, Run.performAction, Walk.snapshot_memo, hm, Walk.snapshot_state, ht]
      rfl
    case panicked =>
      refine round_panicked ?_
      rw [run_taskHandler, Run.performAction, Walk.snapshot_memo, hm, Walk.snapshot_state, ht]

theorem firstBranch_eq {state : Json} {connections : List Connection}
    {found : List (Condition × String)} (h : branches connections = .returned (.ok found)) :
    firstBranch state found =
      (firstHolding state connections).map (Option.map (·.target)) := by
  induction connections generalizing found
  case nil =>
    cases h
    rfl
  case cons connection rest ih =>
    rw [branches] at h
    rw [firstHolding, Connection.holds]
    cases hc : connection.condition <;> simp only [hc] at h
    case none => exact ih h
    case some source =>
      obtain ⟨parsed, hp, h⟩ := Outcome.bind_eq_returned_iff.mp h
      cases parsed <;> simp only at h
      case error => cases h
      case ok condition =>
        obtain ⟨others, ho, h⟩ := Outcome.bind_eq_returned_iff.mp h
        cases others <;> cases h
        simp only [hp, firstBranch]
        rcases condition.evaluate state with (_ | _) | _
        case returned.false => exact ih ho
        all_goals rfl

theorem round_decision {found : List (Condition × String)}
    (h : branches (flow.outgoing walk.position) = .returned (.ok found)) :
    Handler.round now (decisionHandler found (fallback? (flow.outgoing walk.position)))
        (walk.snapshot flow runId) world =
      flow.shown runId (concluded (flow.choose walk.position walk.state, walk, world)) := by
  rw [choose]
  cases hf : firstHolding walk.state (flow.outgoing walk.position)
  case returned chosen =>
    refine round_along (walk.wait.toList.map (Wait.entry walk.position)) ?_ rfl
      fun _ => Walk.belongsTo_of_mem
    rw [run_decisionHandler, firstBranch_eq h, Walk.snapshot_state, hf]
    cases chosen <;> rfl
  case panicked =>
    refine round_panicked ?_
    rw [run_decisionHandler, firstBranch_eq h, Walk.snapshot_state, hf]
    rfl

theorem find_entry_snapshot :
    Run.entry? (walk.snapshot flow runId) (resumeId walk.position walk.position) =
      walk.wait.map (Wait.entry walk.position) := by
  rw [Run.entry?, Walk.snapshot]
  cases walk.wait
  case none      => rfl
  case some wait => simp [Walk.entry_id]

theorem snapshot_eq_snapshotWith {wait : Wait} (h : walk.wait = some wait) :
    walk.snapshot flow runId = walk.snapshotWith flow runId [wait.entry walk.position] := by
  simp [Walk.snapshotWith, Walk.snapshot, h]

theorem register_snapshot {entry : ResumeEntry} (h : walk.wait = none) :
    (walk.snapshot flow runId).register entry = walk.snapshotWith flow runId [entry] := by
  simp [Run.register, Walk.snapshotWith, Walk.snapshot, h]

theorem pollTimer_snapshotWith {id : String} {deadline : Timestamp} {fired : Bool} :
    (walk.snapshotWith flow runId [.timer id deadline fired]).pollTimer now id deadline fired =
      if fired ∨ deadline ≤ now then
        (.ok none, walk.snapshotWith flow runId [.timer id deadline true])
      else
        (.ok (some (.timer id deadline fired)),
          walk.snapshotWith flow runId [.timer id deadline fired]) := by
  rw [Run.pollTimer]
  by_cases h : fired ∨ deadline ≤ now
  case pos =>
    have hb : (fired || decide (deadline ≤ now)) = true := by simpa using h
    rw [if_pos h, if_pos hb]
    simp [Walk.snapshotWith, updateFirst, ResumeEntry.id, ResumeEntry.fire]
  case neg =>
    have hb : (fired || decide (deadline ≤ now)) ≠ true := by simpa using h
    rw [if_neg h, if_neg hb]

theorem waitMillis_snapshot (flow : Flow) (runId : String) (now : Timestamp) (walk : Walk)
    (millis : Nat) :
    (walk.snapshot flow runId).waitMillis now walk.position millis =
      let id := resumeId walk.position walk.position
      match walk.wait.getD (.timer (now.after millis) false) with
      | .timer deadline fired =>
        if fired ∨ deadline ≤ now then
          (.ok none, walk.snapshotWith flow runId [.timer id deadline true])
        else
          (.ok (some (.timer id deadline fired)),
            walk.snapshotWith flow runId [.timer id deadline fired])
      | .event .. => (.error (.resumeIdConflict walk.position id), walk.snapshot flow runId) := by
  rw [Run.waitMillis, Walk.snapshot_currentStep]
  simp only [find_entry_snapshot]
  cases hw : walk.wait
  case none =>
    dsimp only [Option.map_none]
    rw [register_snapshot hw, pollTimer_snapshotWith]
    rfl
  case some wait =>
    cases wait
    case timer =>
      dsimp only [Option.map_some, Wait.entry]
      rw [snapshot_eq_snapshotWith hw]
      exact pollTimer_snapshotWith
    case event => rfl

theorem round_delay {millis : Nat} :
    Handler.round now (delayHandler walk.position millis (flow.successor? walk.position))
        (walk.snapshot flow runId) world =
      flow.shown runId (concluded (.returned (flow.visitDelay millis now walk), walk, world)) := by
  have hw := waitMillis_snapshot flow runId now walk millis
  rw [visitDelay]
  split
  case h_1 deadline fired heq =>
    simp only [heq] at hw
    split
    case isTrue h =>
      rw [if_pos h] at hw
      refine round_onward [(Wait.timer deadline true).entry walk.position] ?_ rfl ?_
      case refine_1 =>
        rw [run_delayHandler, hw]
        rfl
      case refine_2 => exact fun _ => Walk.belongsTo_of_mem_singleton
    case isFalse h =>
      rw [if_neg h] at hw
      refine round_stay ?_
      rw [run_delayHandler, hw]
      rfl
  case h_2 heq =>
    simp only [heq] at hw
    refine round_fail ?_
    rw [run_delayHandler, hw]

theorem waitEvent_snapshot (flow : Flow) (runId : String) (walk : Walk) (filter : Json) :
    (walk.snapshot flow runId).waitEvent walk.position filter =
      let id := resumeId walk.position walk.position
      match walk.wait.getD (.event filter none) with
      | .event filter delivered =>
        (.ok (.event id filter delivered),
          walk.snapshotWith flow runId [.event id filter delivered])
      | .timer .. => (.error (.resumeIdConflict walk.position id), walk.snapshot flow runId) := by
  rw [Run.waitEvent, Walk.snapshot_currentStep]
  simp only [find_entry_snapshot]
  cases hw : walk.wait
  case none =>
    dsimp only [Option.map_none]
    rw [register_snapshot hw]
    rfl
  case some wait =>
    cases wait
    case timer => rfl
    case event =>
      dsimp only [Option.map_some, Wait.entry]
      rw [snapshot_eq_snapshotWith hw]
      rfl

theorem round_event {filter : Json} :
    Handler.round now (eventHandler walk.position filter (flow.successor? walk.position))
        (walk.snapshot flow runId) world =
      flow.shown runId (concluded (.returned (flow.visitEvent filter walk).1,
        (flow.visitEvent filter walk).2, world)) := by
  have hw := waitEvent_snapshot flow runId walk filter
  rw [visitEvent]
  split
  case h_1 filter payload heq =>
    simp only [heq] at hw
    refine round_onward [(Wait.event filter (some payload)).entry walk.position] ?_ rfl ?_
    case refine_1 =>
      rw [run_eventHandler, hw, absorb_eq]
      rfl
    case refine_2 => exact fun _ => Walk.belongsTo_of_mem_singleton
  case h_2 filter heq =>
    simp only [heq] at hw
    refine round_stay ?_
    rw [run_eventHandler, hw]
    rfl
  case h_3 heq =>
    simp only [heq] at hw
    refine round_fail ?_
    rw [run_eventHandler, hw]

end Flow

namespace Flow

variable {ω : Type} {flow : Flow} {tasks : Dict (StepTask ω)} {now : Timestamp} {walk after : Walk}
  {world world' : ω} {runId : String} {workflow : Workflow ω} {budget : Budget}

-- The handler that a step was given makes the round that the step means.
theorem round_of_handlerOf {step : Step} {handler : Handler ω}
    (h : flow.handlerOf tasks step = .returned (.ok handler)) (at_step : step.id = walk.position)
    (live : walk.status.isClosed = false) :
    Handler.round now handler (walk.snapshot flow runId) world =
      flow.shown runId (concluded (flow.visitKind tasks now step.kind walk world)) := by
  rw [handlerOf, at_step] at h
  cases hk : step.kind <;> simp only [hk] at h
  case begin =>
    cases h
    rw [visitKind, onward_eq]
    exact round_pass _
  case finish =>
    cases h
    exact round_pass none
  case task params schema =>
    rw [visitKind]
    cases ht : tasks.get? walk.position <;> simp only [ht] at h <;> cases h
    exact round_task live
  case decision =>
    obtain ⟨found, hb, h⟩ := Outcome.bind_eq_returned_iff.mp h
    cases found <;> cases h
    exact round_decision hb
  case resumeAfter duration =>
    rw [visitKind]
    cases hd : Duration.parse duration <;> simp only [hd] at h <;> cases h
    exact round_delay
  case waitForEvent input output =>
    cases h
    exact round_event

theorem Compiles.round_eq (h : flow.Compiles tasks workflow) (on : walk.On flow)
    (live : walk.status.isClosed = false) :
    workflow.round now (walk.snapshot flow runId) world =
      flow.shown runId (flow.round tasks now walk world) := by
  have ⟨step, hs, hm, hid⟩ := exists_step on
  have ⟨handler, hh, known⟩ := h.handlers step hm
  rw [Workflow.round_of_handler live (hid ▸ known), round, visit, hs]
  exact round_of_handlerOf hh hid live

theorem Compiles.rounds_eq {left : Nat} (h : flow.Compiles tasks workflow) (on : walk.On flow)
    (live : walk.status.isClosed = false) :
    workflow.rounds now budget left (walk.snapshot flow runId) world =
      flow.shown runId (flow.travel tasks now budget left walk world) := by
  induction left generalizing walk world
  case zero => cases budget <;> rfl
  case succ left ih =>
    rw [Workflow.rounds_succ, h.round_eq on live, travel]
    rcases hr : flow.round tasks now walk world with ⟨_ | ending, after, world⟩
    case none =>
      cases round_rounds h.wellFormed on hr with
      | moved known status => exact ih known (status ▸ live)
    case some => rfl

theorem Compiles.execute_eq (h : flow.Compiles tasks workflow) (on : walk.On flow) :
    workflow.execute now budget (walk.snapshot flow runId) world =
      flow.shown runId (flow.pass tasks runId now budget walk world) := by
  rw [Workflow.execute, pass]
  cases hc : walk.status.isClosed
  case true  => simp [hc]; rfl
  case false =>
    simp only [Walk.snapshot_status, hc]
    exact h.rounds_eq (show walk.launch.On flow from on) rfl

end Flow

end DurableWorkflow
