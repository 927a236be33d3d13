import DurableWorkflow.Proofs.Clock
import DurableWorkflow.Proofs.Engine.History
import DurableWorkflow.Proofs.Memo.Audit
import DurableWorkflow.Proofs.Memo.AtMostOnce

namespace DurableWorkflow

-- Whether one run comes of another by exchanges that are made while the clock shows some times.
def Spans (ω : Type) (times : List Timestamp) (first last : Run) : Prop :=
  ∃ exchanges : List (Exchange ω), Trail first exchanges last ∧ Timed times exchanges

namespace Spans

variable {ω : Type} {times times' : List Timestamp} {now : Timestamp} {first second third : Run}
  {events : List (Event ω)}

theorem refl (run : Run) : Spans ω times run run :=
  ⟨[], .refl run, .nil⟩

theorem append (h₁ : Spans ω times first second) (h₂ : Spans ω times' second third) :
    Spans ω (times ++ times') first third := by
  have ⟨_, trail₁, timed₁⟩ := h₁
  have ⟨_, trail₂, timed₂⟩ := h₂
  exact ⟨_, trail₁.append trail₂, timed₁.append timed₂⟩

-- The clock still shows its first time when the first run has become the second.
theorem prepend (h₁ : Spans ω [now] first second) (h₂ : Spans ω (now :: times) second third) :
    Spans ω (now :: times) first third := by
  have ⟨_, trail₁, timed₁⟩ := h₁
  have ⟨_, trail₂, timed₂⟩ := h₂
  exact ⟨_, trail₁.append trail₂,
    .prepend (fun exchange hm => List.mem_singleton.mp (timed₁.shown exchange hm)) timed₂⟩

theorem of_passage (passage : Passage times first events second) : Spans ω times first second :=
  ⟨_, passage.trail, passage.timed⟩

theorem precedes (h : Spans ω times first second) : first.Precedes second :=
  h.elim fun _ made => made.1.precedes

theorem consistent (h : Spans ω times first second) (consistent : first.Consistent) :
    second.Consistent :=
  h.elim fun _ made => made.1.consistent consistent

theorem audited (h : Spans ω times first second) {log : List AuditEntry}
    (logged : first.auditLog = some log) (forward : times.Pairwise (· ≤ ·)) :
    ∃ added, second.auditLog = some (log ++ added) ∧
      (added.map AuditEntry.time).Pairwise (· ≤ ·) := by
  have ⟨_, trail, timed⟩ := h
  have ⟨added, logged, within⟩ := trail.audited logged
  exact ⟨added, logged, (timed.ordered forward).sublist within⟩

end Spans

namespace Engine

open Flight

variable {ω : Type} {engine : Engine ω} {now : Timestamp} {call : Call} {runId : String}
  {loaded : Option Run} {run last initial : Run} {store : Store} {world world' : ω}
  {ending : CallEnd} {s : State ω} {happening start : Happening ω}
  {happenings : List (Happening ω)}

theorem time_of_mem_exchanges {exchange : Exchange ω}
    (h : exchange ∈ engine.exchanges now call loaded world) : exchange.time = now := by
  rw [exchanges] at h
  split at h
  case h_2 => cases h
  case h_1 =>
    rcases List.mem_append.mp h with h | h
    case inr => exact Workflow.time_of_mem_pass h
    case inl =>
      cases call with
      | resume =>
        obtain ⟨_, _, rfl⟩ := List.mem_map.mp h
        rfl
      | run | retry | cancel => cases h

theorem work_spans (h : engine.work now call loaded world = (ending, some last, world')) :
    ∃ first, engine.origin loaded call = some first ∧ Spans ω [now] first last := by
  have ⟨first, origin, trail⟩ := work_trail h
  exact ⟨first, origin, _, trail, .still fun _ => time_of_mem_exchanges⟩

theorem perform_spans (stored : store.get? runId = some run) :
    ∃ last, (engine.perform now call store world).2.1.get? runId = some last ∧
      Spans ω [now] run last := by
  rw [perform_eq]
  by_cases addressed : call.runId = runId
  case neg => exact ⟨run, by rwa [Store.get?_commit_of_ne addressed], .refl run⟩
  case pos =>
    subst addressed
    rw [Store.get?_commit_self, stored]
    rcases work : engine.work now call (some run) world with ⟨ending, _ | last, world'⟩
    case none => exact ⟨run, rfl, .refl run⟩
    case some =>
      have ⟨first, origin, spans⟩ := work_spans work
      refine ⟨last, rfl, ?_⟩
      cases call with
      | run                     => exact nomatch loaded_eq_none_of_run work
      | resume | retry | cancel => cases origin; exact spans

theorem fire_spans {timers : List DueTimer} {count : Nat} (stored : store.get? runId = some run) :
    ∃ last, (engine.fire now timers count store world).2.1.get? runId = some last ∧
      Spans ω [now] run last := by
  induction timers generalizing count store world run
  case nil => exact ⟨run, stored, .refl run⟩
  case cons timer rest ih =>
    obtain ⟨next, later, here⟩ : ∃ next,
        (engine.perform now (.resume timer.runId timer.resumeId none) store world).2.1.get? runId =
          some next ∧ Spans ω [now] run next := perform_spans stored
    rw [fire]
    generalize engine.perform now (.resume timer.runId timer.resumeId none) store world = performed
      at later ⊢
    obtain ⟨ending, store₁, world₁⟩ := performed
    cases ending
    case panicked   => exact ⟨next, later, here⟩
    case unfinished => exact ⟨next, later, here⟩
    all_goals exact (ih later).imp fun _ reached => ⟨reached.1, here.prepend reached.2⟩

def State.clocksOf : State ω → List (Happening ω) → List Instant
  | _, []                => []
  | s, happening :: rest => s.clocks happening ++ (s.happen happening).clocksOf rest

theorem Grants.spans {workflow : Workflow ω} {driven : Run} (world : ω)
    (granted : engine.Grants now loaded call (.drive workflow driven)) (stored : loaded = some run) :
    Spans ω [now] run driven := by
  subst stored
  cases granted with
  | run new      => cases new
  | retry stored =>
    cases stored
    exact .refl run
  | @resume _ id payload _ _ _ _ stored _ resolved =>
    cases stored
    refine ⟨[⟨now, .resolve id payload, run, world⟩], .cons (.refl run) ?_, .still (by simp)⟩
    simpa [Exchange.after, Request.answer, resolved] using Trail.refl driven

theorem happen_spans (stored : s.store.get? runId = some run) (happening : Happening ω) :
    ∃ last, (s.happen happening).store.get? runId = some last ∧
      Spans ω ((s.clocks happening).map Instant.timestamp) run last := by
  cases happening with
  | act act =>
    cases act with
    | call => exact perform_spans stored
    | sweep => exact fire_spans stored
    | clock => exact ⟨run, stored, .refl run⟩
  | flight engine call moments =>
    rw [State.clocks]
    cases made : s.journey? engine call moments with
    | none =>
      rw [State.happen, made]
      exact perform_spans stored
    | some journey =>
      rw [store_of_journey made]
      by_cases addressed : call.runId = runId
      case neg => exact ⟨run, by rwa [Store.get?_commit_of_ne addressed], .refl run⟩
      case pos =>
        subst addressed
        rw [Store.get?_commit_self, stored]
        cases staged : journey.leg.staged? with
        | none      => exact ⟨run, rfl, .refl run⟩
        | some last =>
          obtain ⟨_, _, granted, passage⟩ := exists_passage_of_journey? made staged
          obtain ⟨later, clocks⟩ := exists_clocks_of_journey? made
          dsimp only
          rw [clocks] at passage ⊢
          exact ⟨last, rfl, (granted.spans s.world stored).prepend (.of_passage passage)⟩

theorem history_spans (stored : s.store.get? runId = some run) (happenings : List (Happening ω)) :
    ∃ last, (happenings.foldl State.happen s).store.get? runId = some last ∧
      Spans ω ((s.clocksOf happenings).map Instant.timestamp) run last := by
  induction happenings generalizing s run
  case nil => exact ⟨run, stored, .refl run⟩
  case cons happening rest ih =>
    have ⟨next, stored, here⟩ := happen_spans stored happening
    have ⟨last, stored, later⟩ := ih stored
    refine ⟨last, stored, ?_⟩
    rw [State.clocksOf, List.map_append]
    exact here.append later

structure State.Starts (s : State ω) (engine : Engine ω) (runId : String) (initial : Run)
    (start : Happening ω) : Prop where
  new    : s.store.get? runId = none
  makes  : start.Makes engine (.run runId initial)
  stored : (s.happen start).store.get? runId ≠ none

theorem State.Starts.spans (h : s.Starts engine runId initial start) :
    ∃ last, (s.happen start).store.get? runId = some last ∧
      Spans ω ((s.clocks start).map Instant.timestamp) (engine.opened runId initial) last := by
  obtain ⟨new, makes, stored⟩ := h
  obtain ⟨last, stored⟩ := Option.ne_none_iff_exists'.mp stored
  refine ⟨last, stored, ?_⟩
  have at_once (stored : (s.after engine (.run runId initial)).store.get? runId = some last) :
      Spans ω [s.now] (engine.opened runId initial) last := by
    rw [State.after, perform_eq] at stored
    rcases work : engine.work s.now (.run runId initial) none s.world with ⟨ending, staged, world'⟩
    simp only [Call.runId, Store.get?_commit_self, new, Option.or_none, work] at stored
    subst stored
    obtain ⟨first, origin, spans⟩ := work_spans work
    cases origin
    exact spans
  cases makes with
  | act makes =>
    cases makes
    exact at_once stored
  | @flight _ _ moments =>
    rw [State.clocks]
    cases made : s.journey? engine (.run runId initial) moments with
    | none =>
      rw [State.happen, made] at stored
      exact at_once stored
    | some journey =>
      rw [store_of_journey made, Call.runId, Store.get?_commit_self, new, Option.or_none] at stored
      obtain ⟨_, _, granted, passage⟩ := exists_passage_of_journey? made stored
      cases granted with
      | run => exact .of_passage passage

theorem opened_consistent (fresh : initial.Unrecorded) (audits : engine.config.auditLog = true) :
    (engine.opened runId initial).auditLog = some [] ∧
      (engine.opened runId initial).Consistent := by
  obtain ⟨memo, auditLog⟩ := fresh
  have opened : engine.opened runId initial =
      { initial with id := some runId, auditLog := some [], memo := .empty } := by
    simp [Engine.opened, Run.keepAuditLog, audits, auditLog, ← memo]
  rw [opened]
  refine ⟨rfl, ⟨[], rfl⟩, ActionMemo.empty_allExecuted, List.nodup_nil, fun key => ?_⟩
  simp [Run.successes, ActionMemo.keys, ActionMemo.empty, Dict.keys, Dict.empty]

-- Whatever is done to a store, the records of a run only grow. The records of a run that was
-- started without any agree, and are in the order of time unless the clock is set back.
theorem State.records_kept (s : State ω) (runId : String) (happenings : List (Happening ω)) :
    (∀ earlier, s.store.get? runId = some earlier →
      ∃ later, (happenings.foldl State.happen s).store.get? runId = some later ∧
        earlier.Precedes later) ∧
    ∀ engine initial start, s.Starts engine runId initial start → initial.Unrecorded →
      engine.config.auditLog = true →
      ∃ last log, ((start :: happenings).foldl State.happen s).store.get? runId = some last ∧
        last.auditLog = some log ∧ last.successes.Nodup ∧ last.successes.Perm last.memo.keys ∧
        ((s.clocksOf (start :: happenings)).Pairwise (fun first second =>
          first.nanos ≤ second.nanos) → (log.map AuditEntry.time).Pairwise (· ≤ ·)) := by
  constructor
  case left =>
    intro earlier stored
    have ⟨later, stored, spans⟩ := history_spans stored happenings
    exact ⟨later, stored, spans.precedes⟩
  case right =>
    intro engine initial start starts fresh audits
    have ⟨begun, stored, first⟩ := starts.spans
    have ⟨last, stored, rest⟩ := history_spans stored happenings
    have spans := first.append rest
    have ⟨blank, agrees⟩ : _ ∧ (engine.opened runId initial).Consistent :=
      opened_consistent fresh audits
    have ⟨log, logged⟩ := (spans.consistent agrees).audited
    refine ⟨last, log, stored, logged, (spans.consistent agrees).once,
      (spans.consistent agrees).perm, fun forward => ?_⟩
    have times : ((s.clocks start).map Instant.timestamp ++
        ((s.happen start).clocksOf happenings).map Instant.timestamp).Pairwise (· ≤ ·) := by
      rw [← List.map_append]
      exact List.pairwise_map.mpr (forward.imp Instant.timestamp_mono)
    have ⟨added, same, sorted⟩ := spans.audited blank times
    rw [logged, List.nil_append] at same
    cases same
    exact sorted

namespace Charge

def placed : Happening Nat :=
  .act (.call shop (.run "r" order.instantiate))

def dealings : List (Happening Nat) :=
  [.act (.clock { nanos := 1000000000 }), .act (.call shop (.retry "r")),
    .act (.clock { nanos := 2000000000 }), .act (.call shop (.resume "r" "pay:receipt" none)),
    .act (.sweep shop)]

def declined : Run :=
  ((opening.happen placed).store.get? "r").getD default

theorem order_starts : opening.Starts shop "r" order.instantiate placed where
  new    := rfl
  makes  := .act .call
  stored := by decide +kernel

theorem dealings_recorded :
    (opening.happen placed).store.get? "r" = some declined ∧
      opening.Starts shop "r" order.instantiate placed ∧ order.instantiate.Unrecorded ∧
      ∃ last log, (dealings.foldl State.happen (opening.happen placed)).store.get? "r" = some last ∧
        declined.Precedes last ∧ last.auditLog = some log ∧
        last.successes.Perm last.memo.keys ∧ last.memo.keys = ["charge"] ∧
        log.map AuditEntry.outcome = [.failure, .success] ∧
        (log.map AuditEntry.time).Pairwise (· ≤ ·) := by
  have known : (opening.happen placed).store.get? "r" = some declined := by decide +kernel
  have fresh : order.instantiate.Unrecorded := ⟨rfl, rfl⟩
  have ⟨last, stored, precedes⟩ :=
    (State.records_kept (opening.happen placed) "r" dealings).1 declined known
  have ⟨last', log, stored', logged, _, perm, sorted⟩ :=
    (State.records_kept opening "r" dealings).2 shop _ placed order_starts fresh rfl
  obtain rfl : last = last' := Option.some.inj (stored.symm.trans stored')
  have paid : ∀ last, (dealings.foldl State.happen (opening.happen placed)).store.get? "r" =
      some last → last.memo.keys = ["charge"] ∧
        last.auditLog.map (·.map AuditEntry.outcome) = some [.failure, .success] := by
    decide +kernel
  have ⟨keys, outcomes⟩ := paid last stored
  rw [logged] at outcomes
  exact ⟨known, order_starts, fresh, last, log, stored, precedes, logged, perm, keys,
    Option.some.inj outcomes, sorted (by decide +kernel)⟩

end Charge

end Engine

end DurableWorkflow
