import DurableWorkflow.Proofs.Clock
import DurableWorkflow.Proofs.Engine.Performance
import DurableWorkflow.Proofs.Sample.Nurture
import DurableWorkflow.Proofs.Workflow.Yield

namespace DurableWorkflow.TrialConversion

variable {ω : Type} {remind : Nat → ω → ω} {trial : Workflow ω}

-- How much time has passed since a trial was started, as far as its delays tell: those that are
-- over have been waited for, and the present one is not over before its time.
structure OnTime (start now : Timestamp) (past : List Timestamp) (present : Option Timestamp) :
    Prop where
  bounded : past.length + present.toList.length ≤ delays.length
  elapsed : start.millis + (delays.take past.length).sum ≤ now.millis
  awaited : ∀ deadline ∈ present,
    start.millis + (delays.take (past.length + 1)).sum ≤ deadline.millis

namespace OnTime

variable {start now later : Timestamp} {past : List Timestamp} {present : Option Timestamp}
  {deadline : Timestamp} {clock : Instant}

theorem begins (h : start ≤ now) : OnTime start now [] none where
  bounded := Nat.zero_le _
  elapsed := (Int.add_zero _).trans_le h
  awaited := by rintro _ ⟨⟩

theorem mono (h : OnTime start now past present) (forward : now ≤ later) :
    OnTime start later past present :=
  { h with elapsed := h.elapsed.trans forward }

theorem fires (h : OnTime start now past (some deadline)) (passed : deadline ≤ now) :
    OnTime start now (past ++ [deadline]) none where
  bounded := by simpa using h.bounded
  elapsed := by
    rw [List.length_append]
    exact (h.awaited deadline rfl).trans passed
  awaited := by rintro _ ⟨⟩

theorem millis_after (clock : Instant) {delay : Nat} (h : delay ∈ delays) :
    (clock.timestamp.after delay).millis = clock.timestamp.millis + delay := by
  have short : ∀ delay ∈ delays, delay ≤ 300 := by decide
  have := short delay h
  have := clock.timestamp_bounds
  rw [Timestamp.after, Timestamp.clamp]
  dsimp only
  omega

theorem renews (h : OnTime start clock.timestamp past present) :
    OnTime start clock.timestamp past
      (present.or (delays[past.length]?.map clock.timestamp.after)) := by
  cases present
  case some => exact h
  case none =>
    rw [Option.none_or]
    rcases next : delays[past.length]? with _ | delay
    case none => exact h
    case some =>
      have ⟨inside, _⟩ := List.getElem?_eq_some_iff.mp next
      refine { h with bounded := inside, awaited := ?_ }
      rintro _ ⟨⟩
      have total : (delays.take (past.length + 1)).sum = (delays.take past.length).sum + delay := by
        rw [List.take_add_one, next, List.sum_append]
        rfl
      have := h.elapsed
      rw [millis_after clock (List.mem_of_getElem? next), total]
      omega

end OnTime

theorem not_after_le (clock : Instant) :
    ∀ delay ∈ delays, ¬ clock.timestamp.after delay ≤ clock.timestamp := by
  intro delay hm
  have positive : ∀ delay ∈ delays, 0 < delay := by decide
  have := positive delay hm
  rw [Instant.after_le_iff]
  omega

section Rounds

variable {now : Timestamp} {budget : Budget} {left sent : Nat} {run next : Run}
  {past : List Timestamp} {present : Option Timestamp} {payload : Json} {step : String}
  {handler : Handler ω} {rest : List ResumeEntry} (built : workflow remind = .ok trial)
include built

theorem eq_of_built :
    trial = ⟨workflowType, "start", initialState, .ofPairs (steps remind)⟩ := by
  rw [workflow, Workflow.build] at built
  split at built <;> cases built
  rfl

theorem handler?_of_mem (h : (step, handler) ∈ steps remind) :
    trial.handler? step = some handler := by
  have distinct : ((steps remind).map (·.1)).Nodup := by simp [steps]
  rw [eq_of_built built]
  exact Dict.get?_ofPairs_of_mem distinct h

theorem instantiate_eq :
    trial.instantiate = { Run.create workflowType "start" with state := initialState } := by
  rw [eq_of_built built]
  rfl

theorem handler?_verdict :
    trial.handler? (verdict payload) =
      some (conclude (payload.field "planType" = .string "paid")) := by
  rw [verdict]
  split
  case isTrue paid =>
    rw [decide_eq_true paid]
    exact handler?_of_mem built (by simp [steps])
  case isFalse unpaid =>
    rw [decide_eq_false unpaid]
    exact handler?_of_mem built (by simp [steps])

variable (live : run.status.isClosed = false)
include live

theorem yields_waiting (currentStep : run.currentStep = "nurture")
    (polled : run.waitEvent "plan-activated" filter = (.ok (.event activation filter none), next))
    (h : Nurtured sent past present next) (ahead : Ahead now past present)
    (due : sent ≤ past.length) (budget : Budget) (left : Nat) (world : ω) :
    ∃ entry after, trial.Yields now budget (left + 1) run world (.suspended entry)
        (reminders remind sent past.length) after ∧
      after.status = .suspended ∧
      Nurtured past.length past (present.or (delays[past.length]?.map now.after)) after := by
  have found : trial.handler? run.currentStep = some (nurture remind) := by
    rw [currentStep]
    exact handler?_of_mem built (by simp [steps])
  have ⟨entry, after, world', waits, nurtured⟩ :=
    nurture_waits polled h ahead due remind world
  exact ⟨entry, _, .close live found waits rfl, rfl, { nurtured with }⟩

theorem yields_start (h : Fresh "start" run)
    (later : ∀ delay ∈ delays, ¬ now.after delay ≤ now) (budget : Budget) (left : Nat) (world : ω) :
    ∃ entry after, trial.Yields now budget (left + 2) run world (.suspended entry) [] after ∧
      after.status = .suspended ∧ Nurtured 0 [] (delays[0]?.map now.after) after := by
  have found : trial.handler? run.currentStep = some start := by
    rw [h.currentStep]
    exact handler?_of_mem built (by simp [steps])
  let next : Run := { run.leaveStep run.currentStep with currentStep := "nurture" }
  have fresh : Fresh "nurture" next :=
    { h with currentStep := rfl, pending := by simp [next, Run.leaveStep, h.pending] }
  have ⟨_, polled, nurtured⟩ := Nurtured.init fresh
  have started : next.status.isClosed = false := live
  have ⟨entry, after, waits, suspended, nurtured⟩ := yields_waiting built started rfl polled
    nurtured ⟨Nat.zero_le _, by rintro _ ⟨⟩, later⟩ le_rfl budget left world
  exact ⟨entry, after, .advance live found .pure waits, suspended, nurtured⟩

theorem yields_delivered (currentStep : run.currentStep = "nurture")
    (state : run.state = initialState)
    (pending : run.pending = .event activation filter (some payload) :: rest) (now : Timestamp)
    (budget : Budget) (left : Nat) (world : ω) :
    ∃ after, trial.Yields now budget (left + 2) run world .finished [] after ∧
      after.status = .finished ∧ after.state = conclusion payload := by
  have found : trial.handler? run.currentStep = some (nurture remind) := by
    rw [currentStep]
    exact handler?_of_mem built (by simp [steps])
  have visit : (nurture remind).Yields now run world (.advance (verdict payload)) []
      { run with state := planned payload } world :=
    nurture_delivered currentStep state pending remind world
  exact ⟨_, .advance live found visit (.close live (handler?_verdict built)
    (conclude_yields Json.assign?_ofMembers world) rfl), rfl, rfl⟩

end Rounds

-- The engine runs trials, and its passes go on for two steps at least: a limit of two or more
-- allows for them, and none anyhow.
structure Hosts (engine : Engine ω) (trial : Workflow ω) : Prop where
  known : engine.workflow workflowType = .ok trial
  room  : 2 ≤ engine.config.budget.rounds

-- How a trial stands between two calls: all reminders were sent whose delays are over.
structure Rests (start now : Timestamp) (past : List Timestamp) (present : Option Timestamp)
    (run : Run) : Prop where
  suspended : run.status = .suspended
  nurtured  : Nurtured past.length past present run
  onTime    : OnTime start now past present

structure Concluded (payload : Json) (run : Run) : Prop where
  finished : run.status = .finished
  state    : run.state = conclusion payload

section Calls

variable {engine : Engine ω} {start : Timestamp} {clock : Instant} {sent : Nat} {run : Run}
  {past : List Timestamp} {present : Option Timestamp} {payload : Json} {pass : Pass ω}
  {runId : String} {world : ω} {rest : List ResumeEntry} (built : workflow remind = .ok trial)
  (hosts : Hosts engine trial)
include built hosts

theorem pass_waiting (live : run.status.isClosed = false) (h : Nurtured sent past present run)
    (due : sent ≤ past.length) (onTime : OnTime start clock.timestamp past present)
    (early : ∀ deadline ∈ present, ¬ deadline ≤ clock.timestamp)
    (here : pass = ⟨runId, trial, clock.timestamp, engine.config.budget, run, world⟩) :
    pass.Returns ∧
      pass.performed = reminders remind sent past.length ∧
      ∃ present, Rests start clock.timestamp past present pass.after := by
  obtain ⟨left, room⟩ := Nat.exists_eq_add_of_le' hosts.room
  have launched : Nurtured sent past present run.launch := { h with }
  have ⟨entry, after, yields, suspended, nurtured⟩ := yields_waiting built (by rfl)
    launched.currentStep launched.waitEvent launched ⟨onTime.bounded, early, not_after_le clock⟩ due
    engine.config.budget (left + 1) world
  obtain ⟨ended, performed, rfl⟩ := Pass.eq_of_yields here live (room ▸ yields)
  exact ⟨by simp [Pass.Returns, ended], performed, _, suspended, nurtured, onTime.renews⟩

theorem pass_start (onTime : start ≤ clock.timestamp)
    (here : pass = ⟨runId, trial, clock.timestamp, engine.config.budget,
      engine.opened runId trial.instantiate, world⟩) :
    pass.Returns ∧ pass.performed = [] ∧
      ∃ present, Rests start clock.timestamp [] present pass.after := by
  obtain ⟨left, room⟩ := Nat.exists_eq_add_of_le' hosts.room
  have opened : (engine.opened runId trial.instantiate).status = .running ∧
      Fresh "start" (engine.opened runId trial.instantiate).launch := by
    rw [instantiate_eq built, Engine.opened, Run.keepAuditLog]
    split <;> exact ⟨rfl, rfl, rfl, rfl, rfl, rfl⟩
  have live : (engine.opened runId trial.instantiate).status.isClosed = false := by
    rw [opened.1]
    rfl
  obtain ⟨entry, after, yields, suspended, nurtured⟩ := yields_start built (by rfl) opened.2
    (not_after_le clock) engine.config.budget left world
  obtain ⟨ended, performed, rfl⟩ := Pass.eq_of_yields here live (room ▸ yields)
  exact ⟨by simp [Pass.Returns, ended], performed, _, suspended, nurtured,
    (OnTime.begins onTime).renews⟩

theorem pass_delivered (live : run.status.isClosed = false)
    (currentStep : run.currentStep = "nurture") (state : run.state = initialState)
    (pending : run.pending = .event activation filter (some payload) :: rest)
    (here : pass = ⟨runId, trial, clock.timestamp, engine.config.budget, run, world⟩) :
    pass.Returns ∧ pass.performed = [] ∧ Concluded payload pass.after := by
  obtain ⟨left, room⟩ := Nat.exists_eq_add_of_le' hosts.room
  have launched : run.launch.status.isClosed = false := rfl
  have ⟨after, yields, finished, concluded⟩ := yields_delivered built launched currentStep state
    pending clock.timestamp engine.config.budget left world
  obtain ⟨ended, performed, rfl⟩ := Pass.eq_of_yields here live (room ▸ yields)
  exact ⟨by simp [Pass.Returns, ended], performed, finished, concluded⟩

end Calls

open Engine

def Waits (remind : Nat → ω → ω) (start now : Timestamp) (sent : Nat) (requests : List (Request ω))
    (loaded : Option Run) : Prop :=
  ∃ past present run, loaded = some run ∧ Rests start now past present run ∧ sent ≤ past.length ∧
    requests = reminders remind sent past.length

def activation? (runId : String) : Act ω → Option Json
  | .call _ (.resume other id payload) =>
    if other = runId ∧ id = activation then some (payload.getD .null) else none
  | .call .. | .sweep _ | .clock _ => none

def Tends (runId : String) (trial : Workflow ω) (act : Act ω) : Prop :=
  ∀ engine call, act.Makes engine call → call.runId = runId →
    Hosts engine trial ∧ call ≠ .cancel runId

namespace Tends

variable {engine : Engine ω} {runId : String} {call : Call} {clock : Instant}

theorem of_call (hosts : Hosts engine trial) (h : call ≠ .cancel runId) :
    Tends runId trial (.call engine call) := by
  rintro _ _ ⟨⟩ _
  exact ⟨hosts, h⟩

theorem of_resume (hosts : Hosts engine trial) {other id : String} {given : Option Json} :
    Tends runId trial (.call engine (.resume other id given)) :=
  of_call hosts Call.noConfusion

theorem of_sweep (hosts : Hosts engine trial) : Tends runId trial (.sweep engine) := by
  rintro _ _ ⟨⟩ _
  exact ⟨hosts, Call.noConfusion⟩

theorem of_clock : Tends runId trial (.clock clock) := by
  rintro _ _ ⟨⟩

end Tends

section Acts

variable {engine : Engine ω} {start : Timestamp} {clock : Instant} {sent : Nat} {run : Run}
  {past : List Timestamp} {present : Option Timestamp} {payload : Json} {runId : String}
  {call : Call} {s : State ω} {act : Act ω}

theorem carries_waiting (built : workflow remind = .ok trial) (hosts : Hosts engine trial)
    (undelivered : ∀ payload, call ≠ .resume call.runId activation payload)
    (uncancelled : call ≠ .cancel call.runId) :
    engine.Carries clock.timestamp (Waits remind start clock.timestamp sent) call where
  keeps := by
    intro _ _ _ _ granted
    cases granted
    exact absurd rfl uncancelled
  passes := by
    rintro _ _ pass ⟨past, present, run, rfl, rests, known, rfl⟩ drives
    obtain @⟨driven, _, world, granted⟩ := drives
    cases granted with
    | run new => cases new
    | retry stored failed =>
      cases stored
      rw [rests.suspended] at failed
      cases failed
    | @resume _ id payload _ _ _ _ stored found resolved live =>
      cases stored
      obtain rfl : trial = driven := by
        rw [rests.nurtured.workflowType, hosts.known] at found
        exact Except.ok.inj found
      have other : id ≠ activation := fun same => undelivered payload (same ▸ rfl)
      obtain ⟨deadline, rfl, ⟨passed, nurtured⟩ | ⟨early, rfl⟩⟩ :=
        rests.nurtured.resolve other resolved
      case inl =>
        have longer : past.length ≤ (past ++ [deadline]).length := by simp
        obtain ⟨returns, performed, present, rests⟩ :=
          pass_waiting built hosts live nurtured longer (rests.onTime.fires passed)
            (by rintro _ ⟨⟩) rfl
        refine ⟨returns, _, present, _, rfl, rests, known.trans longer, ?_⟩
        rw [performed, reminders_append known longer]
      case inr =>
        have ahead : ∀ d ∈ some deadline, ¬ d ≤ clock.timestamp := by
          rintro _ ⟨⟩
          exact early
        obtain ⟨returns, performed, present, rests⟩ :=
          pass_waiting built hosts live rests.nurtured le_rfl rests.onTime ahead rfl
        refine ⟨returns, _, present, _, rfl, rests, known, ?_⟩
        rw [performed, reminders_self, List.append_nil]

theorem Rests.not_due (rests : Rests start clock.timestamp past present run) :
    activation ∉ run.dueTimers s.now := by
  intro due
  obtain ⟨_, deadline, hm, _⟩ := Run.mem_dueTimers.mp due
  rw [rests.nurtured.pending] at hm
  rcases mem_entries hm with event | ⟨i, _, timer⟩ | ⟨_, _, timer⟩
  · cases event
  · exact absurd (ResumeEntry.timer.inj timer).1.symm delayId_ne_activation
  · exact absurd (ResumeEntry.timer.inj timer).1.symm delayId_ne_activation

theorem act_waiting (built : workflow remind = .ok trial) (tends : Tends runId trial act)
    (undelivered : activation? runId act = none) (stored : s.store.get? runId = some run)
    (rests : Rests start s.now past present run) :
    Waits remind start s.now past.length (s.performed runId act)
      ((s.act act).store.get? runId) := by
  refine State.act_carries ?carried ⟨past, present, run, stored, rests, le_rfl, ?none⟩
  case none => exact reminders_self.symm
  case carried =>
    intro engine call prompts addressed
    have ⟨hosts, uncancelled⟩ := tends engine call prompts.makes addressed
    refine carries_waiting built hosts ?undelivered (addressed.symm ▸ uncancelled)
    intro payload delivers
    rw [addressed] at delivers
    cases prompts with
    | call =>
      subst delivers
      simp [activation?] at undelivered
    | @sweep _ timer due =>
      obtain ⟨_, found, due⟩ := Store.mem_listDue.mp due
      obtain ⟨rfl, named, _⟩ := Call.resume.inj delivers
      cases stored.symm.trans found
      rw [named] at due
      exact rests.not_due due

theorem activation?_eq_some (h : activation? runId act = some payload) :
    ∃ engine given, act = .call engine (.resume runId activation given) ∧
      payload = given.getD .null := by
  obtain ⟨engine, call⟩ | engine | clock := act
  case sweep => cases h
  case clock => cases h
  case call =>
    cases call
    case resume other id given =>
      rw [activation?] at h
      split at h <;> cases h
      case isTrue here =>
        obtain ⟨rfl, rfl⟩ := here
        exact ⟨engine, given, rfl, rfl⟩
    all_goals cases h

-- An activation ends the trial that waits for it.
theorem act_delivered (built : workflow remind = .ok trial) (tends : Tends runId trial act)
    (delivered : activation? runId act = some payload) (stored : s.store.get? runId = some run)
    (rests : Rests start s.now past present run) :
    s.performed runId act = [] ∧
      ∃ last, (s.act act).store.get? runId = some last ∧ Concluded payload last := by
  obtain ⟨engine, given, rfl, rfl⟩ := activation?_eq_some delivered
  have ⟨hosts, _⟩ := tends engine _ .call rfl
  have ⟨rest, resolved⟩ := rests.nurtured.deliver s.now given
  let woken : Run :=
    { run with pending := .event activation filter (some (given.getD .null)) :: rest }
  have live : woken.status.isClosed = false := by
    rw [show woken.status = .suspended from rests.suspended]
    rfl
  let pass : Pass ω := ⟨runId, trial, s.now, engine.config.budget, woken, s.world⟩
  let call : Call := .resume runId activation given
  have granted : engine.Grants s.now (s.store.get? call.runId) call (.drive trial woken) :=
    .resume stored (by rw [rests.nurtured.workflowType, hosts.known]) resolved live
  have ⟨returns, performed, concluded⟩ :
      pass.Returns ∧ pass.performed = [] ∧ Concluded (given.getD .null) pass.after :=
    pass_delivered built hosts live rests.nurtured.currentStep rests.nurtured.state rfl rfl
  have silent : s.performed call.runId (.call engine call) = [] :=
    (State.performed_of_drive granted rfl).trans performed
  exact ⟨silent, pass.after, get?_perform_of_drive granted rfl returns, concluded⟩

theorem act_concluded (tends : Tends runId trial act) (stored : s.store.get? runId = some run)
    (finished : run.status = .finished) :
    s.performed runId act = [] ∧ (s.act act).store.get? runId = some run := by
  refine State.act_carries (I := fun requests loaded => requests = [] ∧ loaded = some run) ?_
    ⟨rfl, stored⟩
  intro engine call prompts addressed
  have ⟨_, uncancelled⟩ := tends engine call prompts.makes addressed
  constructor
  case keeps =>
    intro _ _ _ _ granted
    cases granted
    exact absurd (congrArg _ addressed) uncancelled
  case passes =>
    rintro _ _ pass ⟨_, rfl⟩ ⟨world, granted⟩
    cases granted with
    | run new => cases new
    | retry stored failed =>
      cases stored
      rw [finished] at failed
      cases failed
    | resume stored _ resolved live =>
      cases stored
      rw [(Run.resolve_served resolved).status, finished] at live
      cases live

theorem acts_concluded {acts : List (Act ω)} (tends : ∀ act ∈ acts, Tends runId trial act)
    (stored : s.store.get? runId = some run) (finished : run.status = .finished) :
    s.performances runId acts = [] ∧
      (acts.foldl State.act s).store.get? runId = some run := by
  induction acts generalizing s
  case nil => exact ⟨rfl, stored⟩
  case cons act rest ih =>
    have ⟨first, tends⟩ := List.forall_mem_cons.mp tends
    have ⟨performed, stored⟩ := act_concluded first stored finished
    have ⟨silent, stored⟩ := ih tends stored
    refine ⟨?_, stored⟩
    rw [State.performances, performed, silent]
    rfl

theorem act_opening (built : workflow remind = .ok trial) (hosts : Hosts engine trial)
    (new : s.store.get? runId = none) :
    s.performed runId (.call engine (.run runId trial.instantiate)) = [] ∧
      ∃ present last, (s.act (.call engine (.run runId trial.instantiate))).store.get? runId =
        some last ∧ Rests s.now s.now [] present last := by
  let call : Call := .run runId trial.instantiate
  let opened := engine.opened runId trial.instantiate
  let pass : Pass ω := ⟨runId, trial, s.now, engine.config.budget, opened, s.world⟩
  have granted : engine.Grants s.now (s.store.get? call.runId) call (.drive trial opened) :=
    .run new (by rw [instantiate_eq built]; exact hosts.known)
  have ⟨returns, performed, present, rests⟩ : pass.Returns ∧ pass.performed = [] ∧
      ∃ present, Rests s.now s.now [] present pass.after :=
    pass_start built hosts (Int.le_refl _) rfl
  have silent : s.performed call.runId (.call engine call) = [] :=
    (State.performed_of_drive granted rfl).trans performed
  exact ⟨silent, present, pass.after, get?_perform_of_drive granted rfl returns, rests⟩

end Acts

end DurableWorkflow.TrialConversion
