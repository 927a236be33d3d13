import DurableWorkflow.Proofs.Flow.Meaning
import DurableWorkflow.Proofs.Flow.WellFormed

namespace DurableWorkflow

def Step.Awaits (step : Step) : Wait → Prop
  | .timer ..        => ∃ duration, step.kind = .resumeAfter duration
  | .event filter _  => ∃ input output, step.kind = .waitForEvent input output ∧
    filter = (input.map (·.value)).getD .null

def Walk.On (flow : Flow) (walk : Walk) : Prop :=
  walk.position ∈ flow.stepIds

structure Walk.Proper (flow : Flow) (walk : Walk) : Prop where
  on     : walk.On flow
  awaits : ∀ wait, walk.wait = some wait →
    ∃ step, flow.step? walk.position = some step ∧ step.Awaits wait

structure Walk.Kept (before after : Walk) : Prop where
  status   : after.status = before.status
  error    : after.error = before.error
  position : after.position = before.position
  wait     : after.wait = before.wait

namespace Walk.Kept

variable {walk after : Walk}

theorem refl (walk : Walk) : walk.Kept walk :=
  ⟨rfl, rfl, rfl, rfl⟩

theorem adopt {result : Json} (h : walk.Kept after) : walk.Kept (after.adopt result) := by
  rw [Walk.adopt]
  split
  case isTrue  => exact h
  case isFalse => exact { h with }

end Walk.Kept

namespace Flow

variable {ω : Type} {flow : Flow} {tasks : Dict (StepTask ω)} {now : Timestamp} {walk : Walk}
  {world : ω} {runId : String}

theorem exists_step (on : walk.On flow) :
    ∃ step, flow.step? walk.position = some step ∧ step ∈ flow.steps ∧ step.id = walk.position := by
  have ⟨step, hm, hid⟩ := List.mem_map.mp on
  cases hs : flow.step? walk.position
  case none =>
    have := List.find?_eq_none.mp hs step hm
    simp [hid] at this
  case some step =>
    exact ⟨step, rfl, List.mem_of_find?_eq_some hs, by simpa using List.find?_some hs⟩

-- What a visit of the step of a walk can come to.
inductive Visits (flow : Flow) (walk : Walk) : Outcome Move → Prop
  | advance {next : String} (known : next ∈ flow.stepIds) :
    Visits flow walk (.returned (.advance next))
  | finish : Visits flow walk (.returned .finish)
  | stay {wait : Wait} (unresolved : wait.isResolved = false)
      (awaits : walk.Proper flow → ∃ step, flow.step? walk.position = some step ∧ step.Awaits wait) :
      Visits flow walk (.returned (.stay wait))
  | fail {error : Error} (idle : walk.Proper flow → walk.wait = none) :
      Visits flow walk (.returned (.fail error))
  | panicked : Visits flow walk .panicked

theorem Visits.along (h : flow.WellFormed) {connection : Option Connection}
    (hm : ∀ found, connection = some found → found ∈ flow.connections) :
    Visits flow walk (.returned (.along connection)) := by
  cases connection
  case none       => exact .finish
  case some found => exact .advance (h.targets found (hm found rfl))

theorem Visits.onward (h : flow.WellFormed) :
    Visits flow walk (.returned (flow.onward walk.position)) :=
  .along h fun _ => List.mem_of_find?_eq_some

theorem idle_of_kind {step : Step} (hs : flow.step? walk.position = some step)
    (hk : ∀ wait, ¬step.Awaits wait) (proper : walk.Proper flow) : walk.wait = none := by
  cases hw : walk.wait
  case none => rfl
  case some wait =>
    have ⟨step', hs', awaits⟩ := proper.awaits wait hw
    cases hs.symm.trans hs'
    exact absurd awaits (hk wait)

-- At a delay nothing but a timer is found, and at a wait for an event nothing but an event.
theorem exists_timer {step : Step} {duration : String} (proper : walk.Proper flow)
    (hs : flow.step? walk.position = some step) (hk : step.kind = .resumeAfter duration)
    (deadline : Timestamp) :
    ∃ deadline' fired, walk.wait.getD (.timer deadline false) = .timer deadline' fired := by
  rcases hw : walk.wait with _ | ⟨deadline', fired⟩ | _
  case none       => exact ⟨deadline, false, rfl⟩
  case some.timer => exact ⟨deadline', fired, rfl⟩
  case some.event =>
    have ⟨step', hs', awaits⟩ := proper.awaits _ hw
    cases hs.symm.trans hs'
    have ⟨_, _, hk', _⟩ := awaits
    cases hk.symm.trans hk'

theorem exists_event {step : Step} {input output : Option EventValue} (proper : walk.Proper flow)
    (hs : flow.step? walk.position = some step) (hk : step.kind = .waitForEvent input output)
    (filter : Json) :
    ∃ filter' delivered, walk.wait.getD (.event filter none) = .event filter' delivered := by
  rcases hw : walk.wait with _ | _ | ⟨filter', delivered⟩
  case none       => exact ⟨filter, none, rfl⟩
  case some.event => exact ⟨filter', delivered, rfl⟩
  case some.timer =>
    have ⟨step', hs', awaits⟩ := proper.awaits _ hw
    cases hs.symm.trans hs'
    have ⟨_, hk'⟩ := awaits
    cases hk.symm.trans hk'

theorem visitTask_visits (h : flow.WellFormed) {task : StepTask ω} {params : Option Json}
    (idle : walk.Proper flow → walk.wait = none) :
    Visits flow walk (flow.visitTask task params now walk world).1 := by
  rw [visitTask]
  split
  case h_1 => exact .onward h
  case h_2 =>
    rcases task walk.state params world with ⟨_ | _ | _, after⟩
    case returned => exact .onward h
    case failed   => exact .fail idle
    case panicked => exact .panicked

theorem mem_of_firstHolding {state : Json} {connections : List Connection} {found : Connection}
    (h : firstHolding state connections = .returned (some found)) : found ∈ connections := by
  induction connections
  case nil => cases h
  case cons connection rest ih =>
    rw [firstHolding] at h
    rcases hh : connection.holds state with (_ | _) | _ <;> simp only [hh] at h
    case returned.false => exact List.mem_cons_of_mem _ (ih h)
    case returned.true  => cases h; exact List.mem_cons_self
    case panicked       => cases h

theorem choose_visits (h : flow.WellFormed) {state : Json} :
    Visits flow walk (flow.choose walk.position state) := by
  rw [choose]
  cases hf : firstHolding state (flow.outgoing walk.position)
  case panicked => exact .panicked
  case returned chosen =>
    refine .along h fun found hs => ?_
    cases chosen
    case none         =>
      have hm := List.mem_of_find?_eq_some hs
      exact (List.mem_filter.mp hm).1
    case some chosen =>
      cases hs
      exact (List.mem_filter.mp (mem_of_firstHolding hf)).1

theorem visitDelay_visits (h : flow.WellFormed) {step : Step} {duration : String} {millis : Nat}
    (hs : flow.step? walk.position = some step) (hk : step.kind = .resumeAfter duration) :
    Visits flow walk (.returned (flow.visitDelay millis now walk)) := by
  rw [visitDelay]
  split
  case h_1 deadline fired heq =>
    split
    case isTrue => exact .onward h
    case isFalse hn =>
      have unfired : fired = false := by simpa using (not_or.mp hn).1
      exact .stay unfired fun _ => ⟨step, hs, duration, hk⟩
  case h_2 filter delivered heq =>
    refine .fail fun proper => ?_
    have ⟨_, _, found⟩ := exists_timer proper hs hk (now.after millis)
    cases heq.symm.trans found

theorem visitEvent_visits (h : flow.WellFormed) {step : Step} {input output : Option EventValue}
    (hs : flow.step? walk.position = some step) (hk : step.kind = .waitForEvent input output) :
    Visits flow walk (.returned (flow.visitEvent ((input.map (·.value)).getD .null) walk).1) := by
  rw [visitEvent]
  split
  case h_1 => exact .onward h
  case h_2 filter heq =>
    refine .stay rfl fun proper => ?_
    cases hw : walk.wait <;> simp only [hw, Option.getD_none, Option.getD_some] at heq
    case none =>
      cases heq
      exact ⟨step, hs, input, output, hk, rfl⟩
    case some wait => exact heq ▸ proper.awaits wait hw
  case h_3 deadline fired heq =>
    refine .fail fun proper => ?_
    have ⟨_, _, found⟩ := exists_event proper hs hk ((input.map (·.value)).getD .null)
    cases heq.symm.trans found

theorem visit_visits (h : flow.WellFormed) (on : walk.On flow) :
    Visits flow walk (flow.visit tasks now walk world).1 := by
  have ⟨step, hs, hm, _⟩ := exists_step on
  have idle (hk : ∀ wait, ¬step.Awaits wait) := idle_of_kind hs hk
  rw [visit, hs]
  dsimp only
  cases hk : step.kind <;> rw [visitKind]
  case begin    => exact .onward h
  case finish   => exact .finish
  case decision => exact choose_visits h
  case task params schema =>
    have idle := idle fun wait awaits => by cases wait <;> simp [Step.Awaits, hk] at awaits
    cases tasks.get? walk.position
    case none => exact .fail idle
    case some => exact visitTask_visits h idle
  case resumeAfter duration =>
    have ⟨millis, hd⟩ := h.durations step hm duration hk
    rw [hd]
    exact visitDelay_visits h hs hk
  case waitForEvent input output => exact visitEvent_visits h hs hk

theorem visitTask_kept {task : StepTask ω} {params : Option Json} :
    walk.Kept (flow.visitTask task params now walk world).2.1 := by
  rw [visitTask]
  split
  case h_1 => exact .adopt (.refl walk)
  case h_2 =>
    rcases task walk.state params world with ⟨_ | _ | _, after⟩
    case returned => exact .adopt { Walk.Kept.refl walk with }
    case failed   => exact { Walk.Kept.refl walk with }
    case panicked => exact .refl walk

theorem visitEvent_kept {filter : Json} : walk.Kept (flow.visitEvent filter walk).2 := by
  rw [visitEvent]
  split <;> exact { Walk.Kept.refl walk with }

theorem visit_kept : walk.Kept (flow.visit tasks now walk world).2.1 := by
  rw [visit]
  split
  case h_2 => exact .refl walk
  case h_1 step hs =>
    cases step.kind <;> rw [visitKind]
    case task params schema =>
      cases tasks.get? walk.position
      case none => exact .refl walk
      case some => exact visitTask_kept
    case resumeAfter duration => cases Duration.parse duration <;> exact .refl walk
    case waitForEvent => exact visitEvent_kept
    all_goals exact .refl walk

inductive Rounds (flow : Flow) (walk : Walk) : Option PassEnd → Walk → Prop
  | moved {after : Walk} (known : after.On flow) (status : after.status = walk.status)
      (error : after.error = walk.error) (idle : after.wait = none) : Rounds flow walk none after
  | suspended {after : Walk} {wait : Wait} (stays : after.position = walk.position)
      (status : after.status = .suspended) (error : after.error = walk.error)
      (waits : after.wait = some wait)
      (unresolved : wait.isResolved = false)
      (awaits : walk.Proper flow → ∃ step, flow.step? walk.position = some step ∧ step.Awaits wait) :
      Rounds flow walk (some (.suspended (wait.entry walk.position))) after
  | finished {after : Walk} (stays : after.position = walk.position)
      (status : after.status = .finished) (idle : after.wait = none) :
      Rounds flow walk (some .finished) after
  | failed {after : Walk} {error : Error} (stays : after.position = walk.position)
      (status : after.status = .failed) (idle : walk.Proper flow → after.wait = none) :
      Rounds flow walk (some (.failed error)) after
  | panicked {after : Walk} (stays : after.position = walk.position) :
      Rounds flow walk (some .panicked) after

theorem round_rounds {ending : Option PassEnd} {after : Walk} {world' : ω} (h : flow.WellFormed)
    (on : walk.On flow) (hr : flow.round tasks now walk world = (ending, after, world')) :
    Rounds flow walk ending after := by
  have visits : Visits flow walk (flow.visit tasks now walk world).1 := visit_visits h on
  have kept : walk.Kept (flow.visit tasks now walk world).2.1 := visit_kept
  rw [round] at hr
  generalize flow.visit tasks now walk world = visited at visits kept hr
  obtain ⟨move, after, world⟩ := visited
  dsimp only at visits kept
  cases visits with
  | advance known =>
    cases hr
    exact .moved known kept.status kept.error rfl
  | finish =>
    cases hr
    exact .finished kept.position rfl rfl
  | stay unresolved awaits =>
    cases hr
    rw [Walk.conclude, kept.position]
    exact .suspended rfl rfl kept.error rfl unresolved awaits
  | fail idle =>
    cases hr
    exact .failed kept.position rfl fun proper => kept.wait.trans (idle proper)
  | panicked =>
    cases hr
    exact .panicked kept.position

theorem Rounds.on {ending : Option PassEnd} {after : Walk} (h : Rounds flow walk ending after)
    (on : walk.On flow) : after.On flow := by
  cases h with
  | moved known => exact known
  | suspended stays | finished stays | failed stays | panicked stays =>
    rw [Walk.On, stays]
    exact on

theorem travel_on (h : flow.WellFormed) {budget : Budget} {left : Nat} (on : walk.On flow) :
    (flow.travel tasks now budget left walk world).2.1.On flow := by
  induction left generalizing walk world
  case zero => cases budget <;> exact on
  case succ left ih =>
    rw [travel]
    rcases hr : flow.round tasks now walk world with ⟨_ | ending, after, world⟩
    case none => exact ih ((round_rounds h on hr).on on)
    case some => exact (round_rounds h on hr).on on

theorem pass_on (h : flow.WellFormed) {budget : Budget} (on : walk.On flow) :
    (flow.pass tasks runId now budget walk world).2.1.On flow := by
  rw [pass]
  split
  case isTrue  => exact on
  case isFalse => exact travel_on h on

end Flow

end DurableWorkflow
