import DurableWorkflow.Proofs.Memo.Invocation

namespace DurableWorkflow

theorem Dict.mem_keys_iff {α : Type} {dict : Dict α} {key : String} :
    key ∈ dict.keys ↔ dict.get? key ≠ none := by
  rw [keys, List.mem_map, Option.ne_none_iff_exists']
  constructor
  case mp =>
    rintro ⟨entry, hm, rfl⟩
    exact ⟨entry.2, mem_entries_iff.mp hm⟩
  case mpr =>
    rintro ⟨value, bound⟩
    exact ⟨(key, value), mem_entries_iff.mpr bound, rfl⟩

theorem ActionMemo.mem_keys_record {memo : ActionMemo} {key other : String} {value : Json} :
    other ∈ (memo.record key value).keys ↔ other = key ∨ other ∈ memo.keys := by
  rw [keys, record, Dict.mem_keys_iff, Dict.get?_insertIfNew, keys, Dict.mem_keys_iff]
  split
  case isTrue same  => simp [same]
  case isFalse diff => simp [Ne.symm diff]

namespace Run

def successes (run : Run) : List String :=
  ((run.auditLog.getD []).filter (·.outcome = .success)).map AuditEntry.action

structure Unrecorded (run : Run) : Prop where
  memo     : run.memo = .empty
  auditLog : run.auditLog.getD [] = []

-- What is still so of a run at a later point: its records have only grown.
structure Precedes (earlier later : Run) : Prop where
  id           : later.id = earlier.id
  workflowType : later.workflowType = earlier.workflowType
  memo         : ∀ key entry, earlier.memo.entries.get? key = some entry →
    later.memo.entries.get? key = some entry
  auditLog     : ∀ log, earlier.auditLog = some log →
    ∃ added, later.auditLog = some (log ++ added)

-- The audit log and the memo tell of the same actions.
structure Consistent (run : Run) : Prop where
  audited  : ∃ log, run.auditLog = some log
  executed : run.memo.AllExecuted
  once     : run.successes.Nodup
  matched  : ∀ key, key ∈ run.successes ↔ key ∈ run.memo.keys

theorem Consistent.perm {run : Run} (h : run.Consistent) : run.successes.Perm run.memo.keys :=
  (List.perm_ext_iff_of_nodup h.once run.memo.entries.nodup_keys).mpr h.matched

end Run

namespace Exchange

variable {ω : Type} {exchange : Exchange ω}

def entry (exchange : Exchange ω) (key : String) (outcome : AuditOutcome) : AuditEntry :=
  ⟨exchange.run.currentStep, key, exchange.time, outcome⟩

inductive Records (exchange : Exchange ω) : Prop
  | nothing (memo : exchange.after.memo = exchange.run.memo)
      (auditLog : exchange.after.auditLog = exchange.run.auditLog)
  | failure {key : String} (memo : exchange.after.memo = exchange.run.memo)
      (auditLog : exchange.after.auditLog =
        exchange.run.auditLog.map (· ++ [exchange.entry key .failure]))
  | success {key : String} {value : Json} (missing : exchange.run.memo.get? key = none)
      (memo : exchange.after.memo = exchange.run.memo.record key value)
      (auditLog : exchange.after.auditLog =
        exchange.run.auditLog.map (· ++ [exchange.entry key .success]))

theorem records (exchange : Exchange ω) : exchange.Records := by
  cases hk : exchange.request.key?
  case none =>
    exact .nothing (exchange.request.answer_memo hk) (exchange.request.answer_auditLog hk)
  case some key =>
    have ⟨accepts, thunk, hr⟩ := exists_action_of_key? hk
    have after := after_of_action hr
    rw [Run.performAction] at after
    cases missing : exchange.run.memo.get? key <;> rw [missing] at after
    case some => exact .nothing (by rw [after]) (by rw [after])
    case none =>
      dsimp only at after
      rcases ht : thunk exchange.world with ⟨value | message | _, world⟩ <;> rw [ht] at after
      case returned => exact .success missing (by rw [after]; rfl) (by rw [after]; rfl)
      case failed   => exact .failure (by rw [after]; rfl) (by rw [after]; rfl)
      case panicked => exact .nothing (by rw [after]) (by rw [after])

theorem served (exchange : Exchange ω) : exchange.run.Served exchange.after :=
  exchange.request.answer_served

theorem precedes (exchange : Exchange ω) : exchange.run.Precedes exchange.after where
  id           := exchange.served.id
  workflowType := exchange.served.workflowType
  memo key entry kept := by
    cases exchange.records with
    | nothing memo | failure memo => rwa [memo]
    | success missing memo =>
      rw [memo, ActionMemo.record, Dict.get?_insertIfNew]
      split
      case isTrue same => rw [same, kept]; rfl
      case isFalse     => exact kept
  auditLog log logged := by
    cases exchange.records with
    | nothing _ auditLog => exact ⟨[], by rw [auditLog, logged, List.append_nil]⟩
    | failure _ auditLog | success _ _ auditLog => exact ⟨[_], by rw [auditLog, logged]; rfl⟩

theorem consistent (h : exchange.run.Consistent) : exchange.after.Consistent := by
  obtain ⟨log, logged⟩ := h.audited
  cases exchange.records with
  | nothing memo auditLog =>
    have same : exchange.after.successes = exchange.run.successes := by
      simp only [Run.successes, auditLog]
    exact ⟨⟨log, auditLog.trans logged⟩, memo ▸ h.executed, same ▸ h.once,
      by rw [same, memo]; exact h.matched⟩
  | failure memo auditLog =>
    rw [logged] at auditLog
    have same : exchange.after.successes = exchange.run.successes := by
      simp [Run.successes, auditLog, logged, entry]
    exact ⟨⟨_, auditLog⟩, memo ▸ h.executed, same ▸ h.once,
      by rw [same, memo]; exact h.matched⟩
  | @success key value missing memo auditLog =>
    rw [logged] at auditLog
    have more : exchange.after.successes = exchange.run.successes ++ [key] := by
      simp [Run.successes, auditLog, logged, entry]
    -- The action is new to the memo, so it is new to the audit log.
    have fresh : key ∉ exchange.run.successes := by
      rw [h.matched, ActionMemo.keys, Dict.mem_keys_iff]
      exact fun known => known (ActionMemo.entries_eq_none h.executed missing)
    refine ⟨⟨_, auditLog⟩, exchange.memo_grows.executed h.executed, ?_, fun other => ?_⟩
    · rw [more, List.nodup_append]
      refine ⟨h.once, by simp, fun other hm last hl same => ?_⟩
      rw [same, List.mem_singleton.mp hl] at hm
      exact fresh hm
    · rw [more, memo, ActionMemo.mem_keys_record, List.mem_append, h.matched, List.mem_singleton,
        or_comm]

theorem audited {log : List AuditEntry} (logged : exchange.run.auditLog = some log) :
    ∃ added, exchange.after.auditLog = some (log ++ added) ∧
      (added.map AuditEntry.time).Sublist [exchange.time] := by
  cases exchange.records with
  | nothing _ auditLog => exact ⟨[], by rw [auditLog, logged, List.append_nil], List.nil_sublist _⟩
  | failure _ auditLog | success _ _ auditLog =>
    exact ⟨[_], by rw [auditLog, logged]; rfl, .refl _⟩

end Exchange

namespace Run

variable {first second third : Run}

namespace Precedes

theorem refl (run : Run) : run.Precedes run :=
  ⟨rfl, rfl, fun _ _ kept => kept, fun log logged => ⟨[], by rw [logged, List.append_nil]⟩⟩

theorem trans (h₁ : first.Precedes second) (h₂ : second.Precedes third) : first.Precedes third where
  id             := h₂.id.trans h₁.id
  workflowType   := h₂.workflowType.trans h₁.workflowType
  memo key entry := h₂.memo key entry ∘ h₁.memo key entry
  auditLog log logged := by
    have ⟨added, logged⟩ := h₁.auditLog log logged
    have ⟨more, logged⟩ := h₂.auditLog _ logged
    exact ⟨added ++ more, by rw [logged, List.append_assoc]⟩

end Precedes

theorem Steered.precedes (h : first.Steered second) : first.Precedes second where
  id             := h.id
  workflowType   := h.workflowType
  memo key entry kept := h.memo ▸ kept
  auditLog log logged := ⟨[], by rw [h.auditLog, logged, List.append_nil]⟩

theorem Steered.consistent (h : first.Steered second) (consistent : first.Consistent) :
    second.Consistent := by
  have same : second.successes = first.successes := by simp only [successes, h.auditLog]
  exact ⟨h.auditLog ▸ consistent.audited, h.memo ▸ consistent.executed, same ▸ consistent.once,
    by rw [same, h.memo]; exact consistent.matched⟩

end Run

namespace Trail

variable {ω : Type} {first last : Run} {history : List (Exchange ω)}

theorem precedes (t : Trail first history last) : first.Precedes last := by
  induction t
  case nil h                    => exact h.precedes
  case cons exchange _ h _ tail => exact (h.precedes.trans exchange.precedes).trans tail

theorem consistent (t : Trail first history last) (h : first.Consistent) : last.Consistent := by
  induction t
  case nil steered            => exact steered.consistent h
  case cons steered _ tail => exact tail (Exchange.consistent (steered.consistent h))

theorem audited (t : Trail first history last) {log : List AuditEntry}
    (logged : first.auditLog = some log) :
    ∃ added, last.auditLog = some (log ++ added) ∧
      (added.map AuditEntry.time).Sublist (history.map Exchange.time) := by
  induction t generalizing log
  case nil h => exact ⟨[], by rw [h.auditLog, logged, List.append_nil], .refl _⟩
  case cons exchange rest h tail ih =>
    have ⟨added, logged, times⟩ := Exchange.audited (h.auditLog.trans logged)
    have ⟨more, logged, later⟩ := ih logged
    refine ⟨added ++ more, by rw [logged, List.append_assoc], ?_⟩
    rw [List.map_append, List.map_cons]
    exact times.append later

end Trail

end DurableWorkflow
