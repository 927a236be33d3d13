import DurableWorkflow.Proofs.Handler.Frame
import DurableWorkflow.Proofs.Run.Delivery
import DurableWorkflow.Proofs.Workflow.Exchange
import Mathlib.Data.List.Nodup

namespace DurableWorkflow

section UpdateFirst

variable {α β : Type} {p : α → Bool} {f : α → α} {list rest : List α} {a : α}

theorem mem_updateFirst (h : a ∈ updateFirst p f list) :
    a ∈ list ∨ ∃ b, list.find? p = some b ∧ a = f b := by
  induction list
  case nil => cases h
  case cons b rest ih =>
    rw [updateFirst] at h
    cases hb : p b <;> simp only [hb, Bool.false_eq_true, if_false, if_true] at h <;>
      rcases List.mem_cons.mp h with rfl | h
    case false.inl => exact .inl List.mem_cons_self
    case false.inr =>
      rcases ih h with h | ⟨c, found, rfl⟩
      · exact .inl (List.mem_cons_of_mem _ h)
      · exact .inr ⟨c, by simp [hb, found], rfl⟩
    case true.inl => exact .inr ⟨b, by simp [hb], rfl⟩
    case true.inr => exact .inl (List.mem_cons_of_mem _ h)

theorem mem_updateFirst_of_find? (found : list.find? p = some a) : f a ∈ updateFirst p f list := by
  induction list
  case nil => cases found
  case cons b rest ih =>
    rw [updateFirst]
    cases hb : p b <;> simp only [List.find?_cons, hb] at found
    case true =>
      cases found
      exact List.mem_cons_self
    case false => exact List.mem_cons_of_mem _ (ih found)

theorem updateFirst_eq_self (found : list.find? p = some a) (same : f a = a) :
    updateFirst p f list = list := by
  induction list
  case nil => rfl
  case cons b rest ih =>
    rw [updateFirst]
    cases hb : p b <;> simp only [List.find?_cons, hb, Option.some.injEq] at found
    case true  => simp [found, same]
    case false => simp [ih found]

theorem map_updateFirst {key : α → β} (same : ∀ a, key (f a) = key a) :
    (updateFirst p f list).map key = list.map key := by
  induction list
  case nil => rfl
  case cons a rest ih =>
    rw [updateFirst]
    split <;> simp [same, ih]

theorem updateFirst_append (h : ∀ a ∈ list, p a = false) :
    updateFirst p f (list ++ rest) = list ++ updateFirst p f rest := by
  induction list
  case nil => rfl
  case cons a list ih =>
    have ⟨ha, h⟩ := List.forall_mem_cons.mp h
    rw [List.cons_append, updateFirst, ha, ih h]
    rfl

theorem eq_of_mem_updateFirst {key : α → β} (distinct : (list.map key).Nodup) {b : α}
    (found : list.find? p = some b) (h : a ∈ updateFirst p f list) (hk : key a = key b) :
    a = f b := by
  induction list
  case nil => cases h
  case cons c rest ih =>
    have ⟨outside, distinct⟩ := List.nodup_cons.mp distinct
    rw [updateFirst] at h
    cases hc : p c
    case true =>
      simp only [List.find?_cons, hc, Option.some.injEq] at found h
      subst found
      rcases List.mem_cons.mp h with h | h
      · exact h
      · exact absurd (List.mem_map.mpr ⟨a, h, hk⟩) outside
    case false =>
      simp only [List.find?_cons, hc] at found h
      rcases List.mem_cons.mp h with rfl | h
      · exact absurd (List.mem_map.mpr ⟨b, List.mem_of_find?_eq_some found, hk.symm⟩) outside
      · exact ih distinct found h

end UpdateFirst

namespace ResumeEntry

variable {entry : ResumeEntry} {now : Timestamp} {id : String}

@[simp]
theorem id_fire : entry.fire.id = entry.id := by
  cases entry <;> rfl

@[simp]
theorem id_deliver {payload : Json} : (entry.deliver payload).id = entry.id := by
  cases entry <;> rfl

theorem isDue_fire : entry.fire.isDue now = false := by
  cases entry <;> rfl

theorem isDue_deliver {payload : Json} : (entry.deliver payload).isDue now = entry.isDue now := by
  cases entry <;> rfl

theorem awaits_of_isDue (h : entry.isDue now) : entry.awaits entry.id := by
  cases entry
  case timer =>
    simp only [isDue, Bool.and_eq_true, Bool.not_eq_true'] at h
    simp [awaits, isResolved, h.1]
  case event => cases h

end ResumeEntry

namespace Run

variable {run after first second third : Run} {now : Timestamp} {id : String}
  {entry : ResumeEntry}

def Distinct (run : Run) : Prop :=
  (run.pending.map ResumeEntry.id).Nodup

def dueIds (now : Timestamp) (run : Run) : List String :=
  (run.pending.filter (ResumeEntry.isDue now)).map ResumeEntry.id

theorem mem_dueIds :
    id ∈ run.dueIds now ↔ ∃ entry ∈ run.pending, entry.isDue now ∧ entry.id = id := by
  simp [dueIds, and_assoc]

theorem dueTimers_subset : run.dueTimers now ⊆ run.dueIds now := by
  rw [dueTimers]
  split
  case isTrue  => exact List.Subset.refl _
  case isFalse => exact List.nil_subset _

-- What may happen to a run while the clock stands still. A timer that is registered when its
-- deadline has passed fires at once, so handlers only take away from what is due.
structure Calmer (now : Timestamp) (before after : Run) : Prop where
  distinct : before.Distinct → after.Distinct
  due      : after.dueIds now ⊆ before.dueIds now

namespace Calmer

theorem refl (run : Run) : Calmer now run run :=
  ⟨fun h => h, List.Subset.refl _⟩

theorem trans (h₁ : Calmer now first second) (h₂ : Calmer now second third) :
    Calmer now first third :=
  ⟨h₂.distinct ∘ h₁.distinct, List.Subset.trans h₂.due h₁.due⟩

theorem of_pending (same : after.pending = run.pending) : Calmer now run after where
  distinct h := by rwa [Distinct, same]
  due        := by rw [dueIds, dueIds, same]; exact List.Subset.refl _

theorem of_sublist (h : after.pending.Sublist run.pending) : Calmer now run after where
  distinct := (h.map _).nodup
  due      := ((h.filter _).map _).subset

theorem update {p : ResumeEntry → Bool} {f : ResumeEntry → ResumeEntry}
    (same : ∀ entry, (f entry).id = entry.id)
    (due : ∀ entry, (f entry).isDue now → entry.isDue now) :
    Calmer now run { run with pending := updateFirst p f run.pending } where
  distinct h := by rwa [Distinct, map_updateFirst same]
  due := by
    intro id h
    have ⟨entry, hm, hdue, hid⟩ := mem_dueIds.mp h
    rcases mem_updateFirst hm with hm | ⟨old, hold, rfl⟩
    · exact mem_dueIds.mpr ⟨entry, hm, hdue, hid⟩
    · have hold := List.mem_of_find?_eq_some hold
      exact mem_dueIds.mpr ⟨old, hold, due old hdue, (same old).symm.trans hid⟩

theorem fire {p : ResumeEntry → Bool} :
    Calmer now run { run with pending := updateFirst p ResumeEntry.fire run.pending } :=
  update (fun _ => ResumeEntry.id_fire) fun _ h => by rw [ResumeEntry.isDue_fire] at h; cases h

theorem deliver {p : ResumeEntry → Bool} {payload : Json} :
    Calmer now run
      { run with pending := updateFirst p (ResumeEntry.deliver payload) run.pending } :=
  update (fun _ => ResumeEntry.id_deliver) fun _ h => ResumeEntry.isDue_deliver.symm.trans h

theorem register (new : run.entry? entry.id = none) (waits : entry.isDue now = false) :
    Calmer now run (run.register entry) where
  distinct h := by
    have outside : entry.id ∉ run.pending.map ResumeEntry.id := by
      simpa [ entry?] using new
    rw [Distinct, Run.register, List.map_append]
    exact List.nodup_append.mpr ⟨h, by simp, by grind⟩
  due := by
    simp [dueIds, Run.register, waits]

theorem pollTimer {deadline : Timestamp} {fired : Bool} :
    Calmer now run (run.pollTimer now id deadline fired).2 := by
  rw [Run.pollTimer]
  split
  case isTrue  => exact fire
  case isFalse => exact refl run

end Calmer

theorem pollTimer_register {deadline : Timestamp} (new : run.entry? id = none) :
    ((run.register (.timer id deadline false)).pollTimer now id deadline false).2 =
      run.register (.timer id deadline (decide (deadline ≤ now))) := by
  have others : ∀ entry ∈ run.pending, decide (entry.id = id) = false := by
    simpa [ entry?] using new
  by_cases past : deadline ≤ now
  case neg => simp [pollTimer, past]
  case pos =>
    have fired : updateFirst (fun entry => decide (entry.id = id)) ResumeEntry.fire
        (run.pending ++ [.timer id deadline false]) =
          run.pending ++ [.timer id deadline true] := by
      rw [updateFirst_append others]
      simp [updateFirst, ResumeEntry.id, ResumeEntry.fire]
    simp [pollTimer, past, register, fired]

section Poll

variable {key other : String} {deadline : Timestamp} {millis : Nat}

theorem waitMillis_of_fired
    (found : run.entry? (resumeId run.currentStep key) = some (.timer other deadline true)) :
    run.waitMillis now key millis = (.ok none, run) := by
  simp only [waitMillis, found]
  rw [pollTimer, updateFirst_eq_self found rfl]
  rfl

theorem waitMillis_of_early
    (found : run.entry? (resumeId run.currentStep key) = some (.timer other deadline false))
    (early : ¬ deadline ≤ now) :
    run.waitMillis now key millis =
      (.ok (some (.timer (resumeId run.currentStep key) deadline false)), run) := by
  simp [waitMillis, found, pollTimer, early]

theorem waitMillis_of_missing (missing : run.entry? (resumeId run.currentStep key) = none)
    (later : ¬ now.after millis ≤ now) :
    let timer := .timer (resumeId run.currentStep key) (now.after millis) false
    run.waitMillis now key millis = (.ok (some timer), run.register timer) := by
  simp [waitMillis, missing, pollTimer, later]

end Poll

theorem exists_fired {key : String} {millis : Nat}
    (h : run.waitMillis now key millis = (.ok none, after)) :
    ∃ deadline, .timer (resumeId run.currentStep key) deadline true ∈ after.pending := by
  rw [waitMillis] at h
  rcases found : run.entry? (resumeId run.currentStep key) with _ | ⟨other, deadline, fired⟩ | _ <;>
    simp only [found] at h
  case none =>
    have left : after =
        run.register (.timer _ (now.after millis) (decide (now.after millis ≤ now))) :=
      (congrArg Prod.snd h).symm.trans (pollTimer_register found)
    rw [pollTimer] at h
    split at h
    case isTrue past =>
      have past : now.after millis ≤ now := by simpa using past
      rw [decide_eq_true past] at left
      refine ⟨now.after millis, ?_⟩
      rw [left]
      exact List.mem_append_right _ (List.mem_singleton_self _)
    case isFalse => cases h
  case some.event => cases h
  case some.timer =>
    have named : other = resumeId run.currentStep key := of_decide_eq_true (List.find?_some found :)
    rw [pollTimer] at h
    split at h
    case isTrue =>
      cases h
      refine ⟨deadline, ?_⟩
      rw [← named] at found ⊢
      exact mem_updateFirst_of_find? found
    case isFalse => cases h

theorem calmer_waitMillis {key : String} {millis : Nat} :
    Calmer now run (run.waitMillis now key millis).2 := by
  rw [waitMillis]
  rcases new : run.entry? (resumeId run.currentStep key) with _ | ⟨_ | _⟩
  case some.timer => exact .pollTimer
  case some.event => exact .refl run
  case none =>
    dsimp only
    rw [pollTimer_register new]
    exact .register new (by simp [ResumeEntry.isDue])

theorem calmer_waitEvent {key : String} {filter : Json} :
    Calmer now run (run.waitEvent key filter).2 := by
  rw [waitEvent]
  rcases new : run.entry? (resumeId run.currentStep key) with _ | ⟨_ | _⟩
  case none => exact .register new rfl
  all_goals exact .refl run

theorem calmer_resolve {payload : Option Json} {reply : Except Error Bool}
    (h : run.resolve now id payload = (reply, after)) : Calmer now run after := by
  rw [resolve] at h
  split at h
  case h_1 => cases h; exact .refl run
  case h_2 => cases h; exact .deliver
  case h_3 =>
    split at h
    case isTrue  => cases h; exact .fire
    case isFalse => cases h; exact .refl run

-- What is due can be resolved.
theorem not_mem_dueIds_of_missing {payload : Option Json} {error : Error}
    (h : run.resolve now id payload = (.error error, after)) : id ∉ run.dueIds now := by
  intro hm
  have ⟨entry, hm, due, hid⟩ := mem_dueIds.mp hm
  rw [resolve] at h
  split at h
  case h_1 missing =>
    have := List.find?_eq_none.mp missing entry hm
    rw [← hid] at this
    exact this (ResumeEntry.awaits_of_isDue due)
  case h_2 => cases h
  case h_3 => split at h <;> cases h

theorem not_mem_dueIds_of_resolve {payload : Option Json} {fired : Bool} (distinct : run.Distinct)
    (h : run.resolve now id payload = (.ok fired, after)) : id ∉ after.dueIds now := by
  intro hm
  have ⟨entry, hm, due, hid⟩ := mem_dueIds.mp hm
  have same {found : ResumeEntry}
      (hf : run.pending.find? (ResumeEntry.awaits id) = some found) : entry.id = found.id := by
    have awaits := List.find?_some hf
    simp only [ResumeEntry.awaits, Bool.and_eq_true, decide_eq_true_eq] at awaits
    exact hid.trans awaits.1.symm
  rw [resolve] at h
  split at h
  case h_1 => cases h
  case h_2 found =>
    cases h
    cases eq_of_mem_updateFirst distinct found hm (same found)
    cases due
  case h_3 deadline fired found =>
    split at h
    case isTrue =>
      cases h
      cases eq_of_mem_updateFirst distinct found hm (same found)
      cases due
    case isFalse future =>
      cases h
      cases List.inj_on_of_nodup_map distinct hm (List.mem_of_find?_eq_some found) (same found)
      simp [ResumeEntry.isDue, future] at due

end Run

namespace Exchange

theorem calmer {ω : Type} (exchange : Exchange ω) :
    Run.Calmer exchange.time exchange.run exchange.after := by
  obtain ⟨now, request, run, world⟩ := exchange
  cases request
  case action     => exact .of_pending Run.pending_performAction
  case setState   => exact .of_pending Run.pending_setState
  case waitMillis => exact Run.calmer_waitMillis
  case waitEvent  => exact Run.calmer_waitEvent
  case resolve    => exact Run.calmer_resolve rfl
  all_goals exact .of_pending rfl

end Exchange

namespace Trail

variable {ω : Type} {first last : Run} {history : List (Exchange ω)} {now : Timestamp}

theorem calmer (t : Trail first history last) (still : ∀ exchange ∈ history, exchange.time = now) :
    Run.Calmer now first last := by
  induction t
  case nil h => exact .of_sublist h.pending
  case cons exchange _ h _ ih =>
    have ⟨here, still⟩ := List.forall_mem_cons.mp still
    exact (Run.Calmer.of_sublist h.pending).trans ((here ▸ exchange.calmer).trans (ih still))

theorem workflowType (t : Trail first history last) : last.workflowType = first.workflowType := by
  induction t
  case nil h => exact h.workflowType
  case cons exchange _ h _ ih =>
    exact ih.trans (exchange.request.answer_served.workflowType.trans h.workflowType)

theorem distinct (t : Trail first history last) (h : first.Distinct) : last.Distinct := by
  induction t
  case nil hs                  => exact (hs.pending.map _).nodup h
  case cons exchange _ hs _ ih => exact ih (exchange.calmer.distinct ((hs.pending.map _).nodup h))

end Trail

end DurableWorkflow
