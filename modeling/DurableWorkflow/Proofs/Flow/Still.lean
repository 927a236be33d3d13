import DurableWorkflow.Proofs.Engine.Sweep
import DurableWorkflow.Proofs.Flow.Delay
import DurableWorkflow.Proofs.Flow.Rest
import DurableWorkflow.Proofs.Memo.Invocation

namespace DurableWorkflow

def Flow.NamesTimer (flow : Flow) (id : String) : Prop :=
  ∃ step ∈ flow.steps, ∃ duration, step.kind = .resumeAfter duration ∧ id = resumeId step.id step.id

-- A walk waits for a time that has not come yet.
structure Walk.Early (now deadline : Timestamp) (walk : Walk) : Prop where
  waits : walk.wait = some (.timer deadline false)
  ahead : ¬deadline ≤ now

namespace Walk

variable {flow : Flow} {walk : Walk} {now deadline : Timestamp} {id runId : String}

theorem Early.resolve (h : walk.Early now deadline) {payload : Option Json} :
    walk.resolve now payload = walk := by
  rw [Walk.resolve, h.waits, Option.map_some, Wait.resolve, Bool.false_or, decide_eq_false h.ahead,
    ← h.waits]

theorem Early.launch (h : walk.Early now deadline) : walk.launch.Early now deadline :=
  ⟨h.waits, h.ahead⟩

theorem Proper.exists_delay (proper : walk.Proper flow) (wf : flow.WellFormed) {fired : Bool}
    (waits : walk.wait = some (.timer deadline fired)) :
    ∃ step, flow.step? walk.position = some step ∧ ∃ duration millis,
      step.kind = .resumeAfter duration ∧ Duration.parse duration = .ok millis := by
  have ⟨step, hs, duration, hk⟩ := proper.awaits _ waits
  have ⟨millis, hd⟩ := wf.durations step (List.mem_of_find?_eq_some hs) duration hk
  exact ⟨step, hs, duration, millis, hk, hd⟩

theorem AtRest.exists_deadline (rests : walk.AtRest flow) (wf : flow.WellFormed)
    (named : flow.NamesTimer id) (awaits : walk.awaits id) :
    ∃ deadline, walk.wait = some (.timer deadline false) := by
  obtain ⟨suspended, rfl⟩ := rests.awaits_iff.mp awaits
  obtain ⟨step, hm, duration, hk, hid⟩ := named
  have ⟨wait, waits, unresolved⟩ := rests.parked suspended
  cases wait
  case timer deadline fired =>
    cases unresolved
    exact ⟨deadline, waits⟩
  case event =>
    have ⟨other, ho, input, output, hk', _⟩ := rests.awaits _ waits
    have hs : flow.step? walk.position = some step := by
      have ⟨found, hs, hm', hid'⟩ := Flow.exists_step rests.on
      have heq : step.id = found.id := (resumeId_self_inj hid).symm.trans hid'.symm
      rwa [List.inj_on_of_nodup_map wf.distinct hm hm' heq]
    cases hs.symm.trans ho
    cases hk.symm.trans hk'

theorem AtRest.names (rests : walk.AtRest flow) {fired : Bool}
    (hm : .timer id deadline fired ∈ (walk.snapshot flow runId).pending) : flow.NamesTimer id := by
  have ⟨wait, hw, he⟩ := List.mem_map.mp hm
  have waits := Option.mem_toList.mp hw
  have ⟨step, hs, awaits⟩ := rests.awaits wait waits
  have at_step : step.id = walk.position := by simpa using List.find?_some hs
  cases wait <;> cases he
  have ⟨duration, hk⟩ := awaits
  exact ⟨step, List.mem_of_find?_eq_some hs, duration, hk, by rw [at_step]⟩

theorem due_iff (waits : walk.wait = some (.timer deadline false)) :
    resumeId walk.position walk.position ∈ (walk.snapshot flow runId).dueIds now ↔
      deadline ≤ now := by
  simp [Run.mem_dueIds, Walk.snapshot, waits, Wait.entry, ResumeEntry.isDue, ResumeEntry.id]

theorem AtRest.exists_early (rests : walk.AtRest flow) (wf : flow.WellFormed)
    (named : flow.NamesTimer id) (awaits : walk.awaits id)
    (idle : id ∉ (walk.snapshot flow runId).dueIds now) : ∃ deadline, walk.Early now deadline := by
  have ⟨deadline, waits⟩ := rests.exists_deadline wf named awaits
  obtain ⟨_, rfl⟩ := rests.awaits_iff.mp awaits
  exact ⟨deadline, waits, fun due => idle ((due_iff waits).mpr due)⟩

end Walk

namespace Flow

variable {ω : Type} {flow : Flow} {tasks : Dict (StepTask ω)} {now deadline : Timestamp}
  {walk : Walk} {world : ω} {id runId : String} {config : Config} {payload : Option Json}
  {workflow : Workflow ω}

theorem round_early (h : flow.WellFormed) (proper : walk.Proper flow)
    (early : walk.Early now deadline) :
    flow.round tasks now walk world =
      (some (.suspended ((Wait.timer deadline false).entry walk.position)),
        { walk with status := .suspended }, world) := by
  have ⟨step, hs, duration, millis, hk, hd⟩ := proper.exists_delay h early.waits
  have visited : flow.visitDelay millis now walk = .stay (.timer deadline false) := by
    simp [visitDelay, early.waits, early.ahead]
  rw [round, visit, hs]
  simp only [hk, visitKind, hd, visited, concluded, Walk.conclude, ← early.waits]

-- A drive that finds the walk early leaves it as it is, and takes back what the launch has changed.
theorem drive_early (h : flow.WellFormed) (rounds : config.budget.rounds ≠ 0)
    (rests : walk.AtRest flow) (suspended : walk.status = .suspended)
    (early : walk.Early now deadline) :
    flow.drive tasks config runId now walk world =
      (.passed (.needResume runId ((Wait.timer deadline false).entry walk.position)), some walk,
        world) := by
  have ⟨left, hl⟩ := Nat.exists_eq_succ_of_ne_zero rounds
  have back : { walk.launch with status := .suspended } = walk := by
    rw [Walk.launch, ← rests.cleared suspended, ← suspended]
  have passed : flow.pass tasks runId now config.budget walk world =
      (.suspended ((Wait.timer deadline false).entry walk.position), walk, world) := by
    rw [pass, suspended, hl, travel, round_early h rests.launch early.launch, back]
    rfl
  rw [drive, passed]

-- A resume before the deadline of the timer drives the run all the same: it is launched and its
-- step is polled. But the step only finds that it has to wait, and leaves the run as it was.
theorem undertake_early (h : flow.WellFormed) (rounds : config.budget.rounds ≠ 0)
    (rests : walk.AtRest flow) (awaits : walk.awaits id) (early : walk.Early now deadline) :
    flow.undertake tasks config runId now world (.resume id payload) (some walk) =
      (.passed (.needResume runId ((Wait.timer deadline false).entry walk.position)), some walk,
        world) := by
  have suspended := (rests.awaits_iff.mp awaits).1
  rw [undertake, awaits, suspended, early.resolve]
  exact drive_early h rounds rests suspended early

theorem Compiles.passExchanges_early (h : flow.Compiles tasks workflow) {budget : Budget}
    (proper : walk.Proper flow) (early : walk.Early now deadline) :
    ∀ exchange ∈ workflow.passExchanges now budget (walk.snapshot flow runId) world,
      exchange.invocations = [] := by
  have ⟨step, hs, duration, millis, hk, hd⟩ := proper.exists_delay h.wellFormed early.waits
  have at_step : step.id = walk.position := by simpa using List.find?_some hs
  have known := h.handler_delay (List.mem_of_find?_eq_some hs) hk hd
  have round : workflow.round now (walk.launch.snapshot flow runId) world = _ :=
    (h.round_eq proper.launch.on rfl).trans
      (congrArg (flow.shown runId) (round_early h.wellFormed proper.launch early.launch))
  intro exchange hm
  rw [Workflow.passExchanges] at hm
  split at hm
  case isTrue => cases hm
  case isFalse =>
    cases hl : budget.rounds <;> rw [hl] at hm
    case zero => cases hm
    case succ left =>
      rw [show (walk.snapshot flow runId).launch = walk.launch.snapshot flow runId from rfl,
        Workflow.roundsExchanges_succ, round,
        Workflow.stepExchanges_of_handler rfl (at_step ▸ known), exchanges_delayHandler] at hm
      cases List.mem_singleton.mp hm
      exact Exchange.invocations_eq_nil rfl

end Flow

end DurableWorkflow
