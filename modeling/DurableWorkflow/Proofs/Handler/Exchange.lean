import DurableWorkflow.Handler.Script

namespace DurableWorkflow

-- A request on the point of being answered.
structure Exchange (ω : Type) where
  time : Timestamp
  request : Request ω
  run : Run
  world : ω

namespace Exchange

variable {ω : Type}

def after (exchange : Exchange ω) : Run :=
  (exchange.request.answer exchange.time exchange.run exchange.world).2.1

end Exchange

-- What a driver may do to a run between two exchanges.
structure Run.Steered (before after : Run) : Prop where
  id           : after.id = before.id
  workflowType : after.workflowType = before.workflowType
  state        : after.state = before.state
  memo         : after.memo = before.memo
  auditLog     : after.auditLog = before.auditLog
  pending      : after.pending.Sublist before.pending

namespace Run.Steered

variable {first second third run : Run}

theorem refl (run : Run) : run.Steered run :=
  ⟨rfl, rfl, rfl, rfl, rfl, .refl _⟩

theorem trans (h₁ : first.Steered second) (h₂ : second.Steered third) : first.Steered third where
  id           := h₂.id.trans h₁.id
  workflowType := h₂.workflowType.trans h₁.workflowType
  state        := h₂.state.trans h₁.state
  memo         := h₂.memo.trans h₁.memo
  auditLog     := h₂.auditLog.trans h₁.auditLog
  pending      := h₂.pending.trans h₁.pending

theorem fail (error : Error) : run.Steered (run.fail error) :=
  { Steered.refl run with }

theorem cancel : run.Steered run.cancel :=
  { Steered.refl run with pending := List.filter_sublist }

theorem settle (step : String) (outcome : StepOutcome) :
    run.Steered (run.settle step outcome).2 := by
  cases outcome
  case suspend => exact { Steered.refl run with }
  all_goals exact { Steered.refl run with pending := List.filter_sublist }

end Run.Steered

-- A trail leads from one run to another by exchanges, between which the driver may steer the run:
-- it decides about status, error and position, and drops entries, but touches nothing else. Facts
-- about whole histories of a run are proved along its trail.
inductive Trail {ω : Type} : Run → List (Exchange ω) → Run → Prop
  | nil {first last : Run} (h : first.Steered last) : Trail first [] last
  | cons {first last : Run} {exchange : Exchange ω} {rest : List (Exchange ω)}
      (h : first.Steered exchange.run) (tail : Trail exchange.after rest last) :
      Trail first (exchange :: rest) last

namespace Trail

variable {ω : Type} {first second third : Run} {earlier later : List (Exchange ω)}

theorem refl (run : Run) : Trail run ([] : List (Exchange ω)) run :=
  .nil (.refl run)

theorem steer_start (h : first.Steered second) (t : Trail second later third) :
    Trail first later third := by
  cases t
  case nil h'       => exact .nil (h.trans h')
  case cons h' tail => exact .cons (h.trans h') tail

theorem append (t₁ : Trail first earlier second) (t₂ : Trail second later third) :
    Trail first (earlier ++ later) third := by
  induction t₁
  case nil h          => exact steer_start h t₂
  case cons h tail ih => exact .cons h (ih t₂)

theorem steer_end (t : Trail first later second) (h : second.Steered third) :
    Trail first later third := by
  have := t.append (.nil h)
  rwa [List.append_nil] at this

theorem split (t : Trail first (earlier ++ later) third) :
    ∃ second, Trail first earlier second ∧ Trail second later third := by
  induction earlier generalizing first
  case nil => exact ⟨first, refl first, t⟩
  case cons exchange earlier ih =>
    cases t
    case cons h tail =>
      have ⟨second, t₁, t₂⟩ := ih tail
      exact ⟨second, .cons h t₁, t₂⟩

end Trail

-- Exchanges that are made, one after another, while the clock shows some times.
structure Timed {ω : Type} (times : List Timestamp) (exchanges : List (Exchange ω)) : Prop where
  shown   : ∀ exchange ∈ exchanges, exchange.time ∈ times
  ordered : times.Pairwise (· ≤ ·) → (exchanges.map Exchange.time).Pairwise (· ≤ ·)

namespace Timed

variable {ω : Type} {times times' : List Timestamp} {now : Timestamp}
  {earlier later : List (Exchange ω)}

theorem nil : Timed times ([] : List (Exchange ω)) :=
  ⟨List.forall_mem_nil _, fun _ => .nil⟩

theorem append (h₁ : Timed times earlier) (h₂ : Timed times' later) :
    Timed (times ++ times') (earlier ++ later) where
  shown exchange hm := List.mem_append.mpr
    ((List.mem_append.mp hm).imp (h₁.shown exchange) (h₂.shown exchange))
  ordered sorted := by
    have ⟨sorted₁, sorted₂, across⟩ := List.pairwise_append.mp sorted
    rw [List.map_append, List.pairwise_append]
    refine ⟨h₁.ordered sorted₁, h₂.ordered sorted₂, fun first hf second hs => ?_⟩
    obtain ⟨exchange, he, rfl⟩ := List.mem_map.mp hf
    obtain ⟨exchange', he', rfl⟩ := List.mem_map.mp hs
    exact across _ (h₁.shown exchange he) _ (h₂.shown exchange' he')

theorem prepend (h : ∀ exchange ∈ earlier, exchange.time = now) (rest : Timed (now :: times) later) :
    Timed (now :: times) (earlier ++ later) where
  shown exchange hm := (List.mem_append.mp hm).elim
    (fun hm => h exchange hm ▸ List.mem_cons_self) (rest.shown exchange)
  ordered sorted := by
    have first (time : Timestamp) (shown : time ∈ now :: times) : now ≤ time :=
      (List.mem_cons.mp shown).elim (fun same => same ▸ Int.le_refl _)
        ((List.pairwise_cons.mp sorted).1 time)
    have same : earlier.map Exchange.time = .replicate earlier.length now :=
      List.eq_replicate_iff.mpr ⟨List.length_map _, by simpa using h⟩
    rw [List.map_append, same, List.pairwise_append]
    refine ⟨List.pairwise_replicate.mpr (.inr (Int.le_refl _)), rest.ordered sorted, ?_⟩
    intro time ht time' ht'
    obtain ⟨exchange, hm, rfl⟩ := List.mem_map.mp ht'
    rw [List.eq_of_mem_replicate ht]
    exact first _ (rest.shown exchange hm)

theorem still (h : ∀ exchange ∈ earlier, exchange.time = now) : Timed [now] earlier := by
  simpa using prepend h (nil (ω := ω))

theorem append_still (h₁ : Timed [now] earlier) (h₂ : Timed [now] later) :
    Timed [now] (earlier ++ later) :=
  prepend (fun exchange hm => List.mem_singleton.mp (h₁.shown exchange hm)) h₂

end Timed

namespace Script

variable {ω α : Type}

def exchanges (now : Timestamp) : Script ω α → Run → ω → List (Exchange ω)
  | .pure _, _, _ => []
  | .panic, _, _ => []
  | .call request next, run, world =>
    ⟨now, request, run, world⟩ ::
      match request.answer now run world with
      | (.returned reply, run, world) => (next reply).exchanges now run world
      | (.panicked, _, _) => []

theorem trail (now : Timestamp) (script : Script ω α) (run : Run) (world : ω) :
    Trail run (script.exchanges now run world) (script.run now run world).2.1 := by
  induction script generalizing run world
  case pure  => exact .refl run
  case panic => exact .refl run
  case call request next ih =>
    rw [Script.exchanges]
    refine .cons (.refl run) ?_
    rw [Script.run, Exchange.after]
    rcases request.answer now run world with ⟨_ | _, after, world⟩
    case returned reply => exact ih reply after world
    case panicked       => exact .refl after

theorem time_of_mem {now : Timestamp} {script : Script ω α} {run : Run} {world : ω}
    {exchange : Exchange ω} (h : exchange ∈ script.exchanges now run world) :
    exchange.time = now := by
  induction script generalizing run world
  case pure  => cases h
  case panic => cases h
  case call request next ih =>
    rw [Script.exchanges] at h
    rcases List.mem_cons.mp h with rfl | h
    · rfl
    · split at h
      case h_1 reply after world _ => exact ih reply h
      case h_2                     => cases h

end Script

end DurableWorkflow
