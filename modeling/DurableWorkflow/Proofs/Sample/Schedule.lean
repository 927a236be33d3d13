import DurableWorkflow.Proofs.Sample.TrialConversion

namespace DurableWorkflow.TrialConversion

open Engine

variable {ω : Type} {remind : Nat → ω → ω} {trial : Workflow ω}

def Forward : State ω → List (Act ω) → Prop
  | _, []          => True
  | s, act :: rest => s.clock.nanos ≤ (s.act act).clock.nanos ∧ Forward (s.act act) rest

structure Sent (remind : Nat → ω → ω) (start : Timestamp) (first last : Nat)
    (performances : List (Performance ω)) : Prop where
  order : performances.map Performance.request = reminders remind first last
  due   : ∀ i clock, ⟨clock, reminder remind i⟩ ∈ performances →
    start.millis + (delays.take (i + 1)).sum ≤ clock.timestamp.millis

namespace Sent

variable {start : Timestamp} {first mid last : Nat} {earlier later : List (Performance ω)}

theorem nil : Sent remind start first first [] where
  order := reminders_self.symm
  due   := by rintro _ _ ⟨⟩

theorem append (h₁ : Sent remind start first mid earlier) (h₂ : Sent remind start mid last later)
    (le₁ : first ≤ mid) (le₂ : mid ≤ last) : Sent remind start first last (earlier ++ later) where
  order := by rw [List.map_append, h₁.order, h₂.order, reminders_append le₁ le₂]
  due i clock hm := (List.mem_append.mp hm).elim (h₁.due i clock) (h₂.due i clock)

theorem of_elapsed {clock : Instant}
    (elapsed : start.millis + (delays.take last).sum ≤ clock.timestamp.millis) :
    Sent remind start first last ((reminders remind first last).map (⟨clock, ·⟩)) where
  order := by simp [Function.comp_def]
  due i shown hm := by
    obtain ⟨request, hm, same⟩ := List.mem_map.mp hm
    obtain ⟨rfl, rfl⟩ := Performance.mk.inj same
    obtain ⟨j, _, before, same⟩ := mem_reminders.mp hm
    obtain rfl := reminder_inj.mp same
    have less : (delays.take (i + 1)).sum ≤ (delays.take last).sum :=
      (List.take_sublist_take_left before).sum_le_sum fun _ _ => Nat.zero_le _
    omega

end Sent

-- How a trial stands, and what was delivered to it with its activation.
inductive Stands (start now : Timestamp) : Option Json → Option Run → Prop
  | waits {past : List Timestamp} {present : Option Timestamp} {run : Run}
      (rests : Rests start now past present run) : Stands start now none (some run)
  | ended {payload : Json} {run : Run} (concluded : Concluded payload run) :
    Stands start now (some payload) (some run)

namespace Stands

variable {start now : Timestamp} {loaded : Option Run} {payload : Json}

theorem exists_suspended (h : Stands start now none loaded) :
    ∃ run, loaded = some run ∧ run.status = .suspended := by
  cases h with
  | waits rests => exact ⟨_, rfl, rests.suspended⟩

theorem exists_concluded (h : Stands start now (some payload) loaded) :
    ∃ run, loaded = some run ∧ Concluded payload run := by
  cases h with
  | ended concluded => exact ⟨_, rfl, concluded⟩

end Stands

section Schedules

variable {engine : Engine ω} {start : Timestamp} {run : Run} {past : List Timestamp}
  {present : Option Timestamp} {payload : Json} {runId : String} {s : State ω} {act : Act ω}
  {acts earlier later : List (Act ω)}

theorem Forward.of_append (h : Forward s (earlier ++ later)) : Forward s earlier := by
  induction earlier generalizing s
  case nil              => trivial
  case cons act rest ih => exact ⟨h.1, ih h.2⟩

theorem acts_waiting (built : workflow remind = .ok trial)
    (tends : ∀ act ∈ acts, Tends runId trial act)
    (undelivered : ∀ act ∈ acts, activation? runId act = none) (forward : Forward s acts)
    (stored : s.store.get? runId = some run) (rests : Rests start s.now past present run) :
    let last := acts.foldl State.act s
    ∃ past' present' run', last.store.get? runId = some run' ∧
      Rests start last.now past' present' run' ∧ past.length ≤ past'.length ∧
      Sent remind start past.length past'.length (s.performances runId acts) := by
  induction acts generalizing s past present run
  case nil => exact ⟨past, present, run, stored, rests, le_rfl, .nil⟩
  case cons act rest ih =>
    have ⟨tended, tends⟩ := List.forall_mem_cons.mp tends
    have ⟨idle, undelivered⟩ := List.forall_mem_cons.mp undelivered
    have ⟨past₁, _, _, stored, rests, longer, performed⟩ :=
      act_waiting built tended idle stored rests
    have sent : Sent remind start past.length past₁.length
        ((s.performed runId act).map (⟨s.clock, ·⟩)) := performed ▸ .of_elapsed rests.onTime.elapsed
    have rests := { rests with onTime := rests.onTime.mono (Instant.timestamp_mono forward.1) }
    have ⟨past₂, present, run, stored, rests, longer', sent'⟩ :=
      ih tends undelivered forward.2 stored rests
    exact ⟨past₂, present, run, stored, rests, longer.trans longer',
      sent.append sent' longer longer'⟩

-- What the acts come to: they go on until the first of them delivers the activation.
theorem acts_stand (built : workflow remind = .ok trial)
    (tends : ∀ act ∈ acts, Tends runId trial act) (forward : Forward s acts)
    (stored : s.store.get? runId = some run) (rests : Rests start s.now [] present run) :
    Stands start (acts.foldl State.act s).now (acts.findSome? (activation? runId))
        ((acts.foldl State.act s).store.get? runId) ∧
      ∃ sent ≤ delays.length, Sent remind start 0 sent (s.performances runId acts) := by
  rcases delivery : acts.findSome? (activation? runId) with _ | payload
  case none =>
    have ⟨past, present, run, stored, rests, _, sent⟩ := acts_waiting built tends
      (List.findSome?_eq_none_iff.mp delivery) forward stored rests
    rw [stored]
    exact ⟨.waits rests, past.length, by have := rests.onTime.bounded; omega, sent⟩
  case some =>
    obtain ⟨earlier, act, later, rfl, delivers, undelivered⟩ :=
      List.findSome?_eq_some_iff.mp delivery
    have ⟨tends, tended, tends'⟩ : (∀ act ∈ earlier, Tends runId trial act) ∧
        Tends runId trial act ∧ ∀ act ∈ later, Tends runId trial act := by
      simpa [or_imp, forall_and] using tends
    have ⟨past, present, run, stored, rests, _, sent⟩ := acts_waiting built tends undelivered
      forward.of_append stored rests
    have ⟨silent, run, stored, concluded⟩ := act_delivered built tended delivers stored rests
    have ⟨silent', stored⟩ := acts_concluded tends' stored concluded.finished
    rw [List.foldl_append, List.foldl_cons, stored, State.performances_append, State.performances,
      silent, silent']
    refine ⟨.ended concluded, past.length, by have := rests.onTime.bounded; omega, ?_⟩
    simpa using sent

theorem silent_of_delivered (built : workflow remind = .ok trial)
    (tends : ∀ act ∈ acts, Tends runId trial act) {delivered : Option Json}
    (stands : Stands start s.now delivered (s.store.get? runId)) (hm : acts = act :: later)
    (delivers : activation? runId act = some payload) : s.performances runId acts = [] := by
  subst hm
  have ⟨tended, tends'⟩ := List.forall_mem_cons.mp tends
  generalize stored : s.store.get? runId = loaded at stands
  cases stands with
  | ended concluded => exact (acts_concluded tends stored concluded.finished).1
  | waits rests =>
    have ⟨silent, _, stored, concluded⟩ := act_delivered built tended delivers stored rests
    rw [State.performances, silent, (acts_concluded tends' stored concluded.finished).1]
    rfl

end Schedules

theorem converted_conclusion {payload : Json} :
    (conclusion payload).field "converted" =
      .bool (payload.field "planType" = .string "paid") := by
  rw [Json.field, conclusion, Json.ofMembers, Json.member?, Entries.find?_ofPairs]
  simp [Entries.find?_cons]

-- A trial keeps its schedule of reminders, whatever calls, sweeps and moves of the clock follow its
-- start. As deadlines are kept in whole milliseconds, a reminder can be sent a fraction of a
-- millisecond before its delays are over.
structure OnSchedule (remind : Nat → ω → ω) (runId : String) (first : State ω) (opening : Act ω)
    (acts : List (Act ω)) : Prop where
  order  : ∃ sent ≤ delays.length,
    (first.performances runId (opening :: acts)).map Performance.request =
      (List.range sent).map (reminder remind)
  -- No reminder is sent before its delays are over, by the milliseconds that the clock reads.
  due    : ∀ i clock, ⟨clock, reminder remind i⟩ ∈ first.performances runId (opening :: acts) →
    first.now.millis + (delays.take (i + 1)).sum ≤ clock.timestamp.millis
  -- By the clock itself, less than a millisecond is missing, and nothing between whole ones.
  early  : ∀ i clock, ⟨clock, reminder remind i⟩ ∈ first.performances runId (opening :: acts) →
    first.clock.nanos + (delays.take (i + 1)).sum * 1000000 < clock.nanos + 1000000
  whole  : ∀ i clock, ⟨clock, reminder remind i⟩ ∈ first.performances runId (opening :: acts) →
    1000000 ∣ first.clock.nanos → 1000000 ∣ clock.nanos →
      first.clock.nanos + (delays.take (i + 1)).sum * 1000000 ≤ clock.nanos
  -- No reminder is sent when an activation is delivered, or later.
  silent : ∀ earlier act later payload, acts = earlier ++ act :: later →
    activation? runId act = some payload →
      (earlier.foldl State.act (first.act opening)).performances runId (act :: later) = []
  waits  : (∀ act ∈ acts, activation? runId act = none) →
    ∃ run, ((opening :: acts).foldl State.act first).store.get? runId = some run ∧
      run.status = .suspended
  ends   : ∀ payload, acts.findSome? (activation? runId) = some payload →
    ∃ run, ((opening :: acts).foldl State.act first).store.get? runId = some run ∧
      run.status = .finished ∧ run.state = conclusion payload ∧
      (run.state.field "converted" = .bool true ↔ payload.field "planType" = .string "paid")

theorem trial_on_schedule {engine : Engine ω} {runId : String} {first : State ω} {opening : Act ω}
    {acts : List (Act ω)} (built : workflow remind = .ok trial)
    (opens : opening = .call engine (.run runId trial.instantiate))
    (new : first.store.get? runId = none) (tends : ∀ act ∈ opening :: acts, Tends runId trial act)
    (forward : Forward first (opening :: acts)) : OnSchedule remind runId first opening acts := by
  subst opens
  obtain ⟨tended, tends⟩ := List.forall_mem_cons.mp tends
  obtain ⟨hosts, _⟩ := tended engine _ .call rfl
  obtain ⟨quiet, present, run, stored, rests⟩ := act_opening built hosts new
  have same : first.performances runId (.call engine (.run runId trial.instantiate) :: acts) =
      (first.act (.call engine (.run runId trial.instantiate))).performances runId acts := by
    rw [State.performances, quiet]
    rfl
  obtain ⟨stands, sent, bounded, schedule⟩ := acts_stand built tends forward.2 stored rests
  refine {
    order  := ?order
    due    := ?due
    early  := ?early
    whole  := ?whole
    silent := ?silent
    waits  := ?waits
    ends   := ?ends
  }
  case order =>
    refine ⟨sent, bounded, ?_⟩
    rw [same, schedule.order, reminders, List.range_eq_range']
    rfl
  case due =>
    rw [same]
    exact schedule.due
  case early =>
    intro i clock hm
    rw [same] at hm
    have positive : 0 < (delays.take (i + 1)).sum := by simp [delays]
    exact Instant.lt_of_timestamp_add positive (schedule.due i clock hm)
  case whole =>
    intro i clock hm whole whole'
    rw [same] at hm
    have due := schedule.due i clock hm
    rw [← Instant.timestamp_of_dvd whole, ← Instant.timestamp_of_dvd whole', ← Int.add_mul]
    exact Int.mul_le_mul_of_nonneg_right due (by decide)
  case silent =>
    rintro earlier act later payload rfl delivers
    obtain ⟨tends, tends'⟩ := List.forall_mem_append.mp tends
    obtain ⟨stands, _⟩ := acts_stand built tends forward.2.of_append stored rests
    exact silent_of_delivered built tends' stands rfl delivers
  case waits =>
    intro undelivered
    rw [List.findSome?_eq_none_iff.mpr undelivered] at stands
    exact stands.exists_suspended
  case ends =>
    intro payload delivered
    rw [delivered] at stands
    obtain ⟨run, stored, concluded⟩ := stands.exists_concluded
    refine ⟨run, stored, concluded.finished, concluded.state, ?_⟩
    simp [concluded.state, converted_conclusion]

namespace Office

def tally (_ : Nat) : Tally → Tally :=
  Tally.bump workflowType "reminders"

def counting : Workflow Tally :=
  ⟨workflowType, "start", initialState, .ofPairs (steps tally)⟩

theorem workflow_tally : workflow tally = .ok counting := by
  rw [workflow, Workflow.build]
  exact if_pos (by decide)

def office : Engine Tally :=
  ⟨.ofPairs [(workflowType, counting)], .standard⟩

theorem hosts : Hosts office counting :=
  ⟨rfl, by decide⟩

def opening : Act Tally :=
  .call office (.run "r" counting.instantiate)

def resume (id : String) (payload : Option Json) : Act Tally :=
  .call office (.resume "r" id payload)

def first : State Tally :=
  ⟨.empty, .empty, .epoch⟩

def day : List (Act Tally) :=
  [.clock ⟨300000000, by decide, by decide⟩, .sweep office, resume (delayId 1) none,
    .clock ⟨500000000, by decide, by decide⟩, .sweep office,
    resume activation (some (Json.ofMembers [("planType", .string "paid")])),
    .clock ⟨700000000, by decide, by decide⟩, .sweep office, resume activation none]

theorem day_on_schedule :
    (first.performances "r" (opening :: day)).map (·.clock.nanos) = [300000000, 500000000] ∧
      OnSchedule tally "r" first opening day := by
  refine ⟨by decide +kernel, trial_on_schedule workflow_tally rfl rfl ?tends ?forward⟩
  case tends =>
    simp only [day, List.forall_mem_cons]
    exact ⟨.of_call hosts Call.noConfusion, .of_clock, .of_sweep hosts, .of_resume hosts, .of_clock,
      .of_sweep hosts, .of_resume hosts, .of_clock, .of_sweep hosts, .of_resume hosts,
      List.forall_mem_nil _⟩
  case forward =>
    refine ⟨?_, ?_, ?_, ?_, ?_, ?_, ?_, ?_, ?_, ?_, trivial⟩ <;> decide

-- The trial begins nine tenths of a millisecond after the clock has begun to read zero, and its
-- first reminder is sent when the clock begins to read 300.
def dawn : State Tally :=
  ⟨.empty, .empty, ⟨900000, by decide, by decide⟩⟩

def morning : List (Act Tally) :=
  [.clock ⟨300000000, by decide, by decide⟩, resume (delayId 0) none]

theorem early_by_fraction :
    Forward dawn (opening :: morning) ∧ (∀ act ∈ opening :: morning, Tends "r" counting act) ∧
      ¬ ∀ i clock, ⟨clock, reminder tally i⟩ ∈ dawn.performances "r" (opening :: morning) →
        dawn.clock.nanos + (delays.take (i + 1)).sum * 1000000 ≤ clock.nanos := by
  have sent : dawn.performances "r" (opening :: morning) =
      [⟨⟨300000000, by decide, by decide⟩, reminder tally 0⟩] := rfl
  refine ⟨?forward, ?tends, fun punctual => ?early⟩
  case forward => refine ⟨?_, ?_, ?_, trivial⟩ <;> decide
  case tends =>
    simp only [morning, List.forall_mem_cons]
    exact ⟨.of_call hosts Call.noConfusion, .of_clock, .of_resume hosts, List.forall_mem_nil _⟩
  case early =>
    have due := punctual 0 _ (sent ▸ List.mem_singleton_self _)
    revert due
    decide

end Office

end DurableWorkflow.TrialConversion
