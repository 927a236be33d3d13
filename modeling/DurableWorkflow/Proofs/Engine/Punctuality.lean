import DurableWorkflow.Proofs.Engine.History

namespace DurableWorkflow.Engine

variable {ω : Type} {first : State ω} {runId : String} {happenings : List (Happening ω)}

structure State.Punctual (first : State ω) (runId : String) (happenings : List (Happening ω)) :
    Prop where
  -- A timer that is fired after a happening was so before, or the clock shows its deadline
  -- meanwhile.
  operations : ∀ earlier happening later, happenings = earlier ++ happening :: later →
    let s := earlier.foldl State.happen first
    ∀ last, (s.happen happening).store.get? runId = some last →
      ∀ id deadline, .timer id deadline true ∈ last.pending →
        (∃ before, s.store.get? runId = some before ∧ .timer id deadline true ∈ before.pending) ∨
          ∃ clock ∈ s.clocks happening, deadline ≤ clock.timestamp
  exchanges : ∀ exchange, .exchange exchange ∈ first.history runId happenings →
    ∀ id deadline deadline', .timer id deadline false ∈ exchange.run.pending →
      .timer id deadline' true ∈ exchange.after.pending →
        deadline' = deadline ∧ deadline ≤ exchange.time
  -- Timers have their deadlines from the first poll of the visit, at all times.
  vigils : ∀ before event after, first.history runId happenings = before ++ event :: after →
    event.run.Vigilant (Event.visit before)
  stored : ∀ last, (happenings.foldl State.happen first).store.get? runId = some last →
    last.Vigilant (Event.visit (first.history runId happenings))

-- No timer of a stored run fires before its deadline, whatever is done to the store and to the
-- clock. The resumes of a sweep that acts on an old list are calls like any other.
theorem State.punctual (new : first.store.get? runId = none)
    (fresh : ∀ happening ∈ happenings, ∀ engine call, happening.Makes engine call →
      call.runId = runId → call.Fresh) : first.Punctual runId happenings := by
  have leads : Leads none (first.history runId happenings) _ := new ▸ history_leads fresh
  have live (visit : List (Event ω)) (within : visit ⊆ first.history runId happenings) :
      ∀ exchange ∈ Event.visit visit, exchange.run.status.isClosed = false :=
    fun exchange hm => live_of_mem_history (within (Event.mem_of_mem_visit hm))
  refine {
    operations := ?operations
    exchanges  := ?exchanges
    vigils     := ?vigils
    stored     := ?stored
  }
  case operations =>
    rintro earlier happening later rfl s last stored id deadline fired
    have here := happen_leads (s := s) (fresh happening (by simp))
    rw [stored] at here
    refine (here.fired fired).imp_right ?_
    rintro ⟨exchange, hm, due⟩
    have ⟨clock, shows, time⟩ := shown_of_mem_eventsOf hm
    exact ⟨clock, shows, time ▸ due⟩
  case exchanges =>
    intro exchange hm id deadline deadline' unfired fired
    have ⟨before, after, cut⟩ := List.append_of_mem hm
    have distinct : exchange.run.Distinct := (cut ▸ leads).accounts_event.distinct
    have same {entry : ResumeEntry} (there : entry ∈ exchange.run.pending) (hid : entry.id = id) :
        entry = .timer id deadline false :=
      List.inj_on_of_nodup_map distinct there unfired hid
    generalize hf : true = done at fired
    cases exchange.sets_after fired with
    | keeps there =>
      cases same there rfl
      cases hf
    | fires there due =>
      cases same there rfl
      exact ⟨rfl, due⟩
    | starts _ missing => exact absurd (Run.mem_ids unfired) missing
  case vigils =>
    intro before event after cut
    refine (cut ▸ leads).accounts_event.timers (live before ?_)
    simp [cut]
  case stored =>
    intro last stored
    rw [stored] at leads
    exact leads.accounts_visit.timers (live _ (List.Subset.refl _))

namespace Nap

def handler : HandlerM Unit StepOutcome := do
  let _ ← HandlerM.waitMillis "nap" 60000
  HandlerM.pause 1
  match ← HandlerM.waitMillis "nap" 60000 with
  | some timer => return .suspend timer
  | none       => return .done

def workflow : Workflow Unit :=
  ⟨"nap", "sleep", .null, .ofPairs [("sleep", handler)]⟩

def engine : Engine Unit :=
  ⟨.ofPairs [("nap", workflow)], .standard⟩

def flight (later : Instant) : Happening Unit :=
  .flight engine (.run "n" workflow.instantiate) [⟨later, ()⟩]

def dusk : State Unit := ⟨.empty, (), .epoch⟩

def status? (s : State Unit) : Option RunStatus := (s.store.get? "n").map (·.status)

example :
    status? (dusk.happen (flight { nanos := 59999000000 })) = some .suspended ∧
      status? (dusk.happen (flight { nanos := 60000000000 })) = some .finished := by
  decide +kernel

end Nap
end DurableWorkflow.Engine
