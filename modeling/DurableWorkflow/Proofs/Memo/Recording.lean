import DurableWorkflow.Proofs.Memo.Audit
import DurableWorkflow.Proofs.Memo.Recollection
import DurableWorkflow.Proofs.Workflow.Operation

namespace DurableWorkflow

theorem ActionMemo.get?_of_unexecuted {memo : ActionMemo} {key : String} {entry : MemoEntry}
    (there : memo.entries.get? key = some entry) (unexecuted : entry.executed = false) :
    memo.get? key = none := by
  simp [get?, there, Option.filter, unexecuted]

theorem Chronicle.entry_kept {ω : Type} {first last : Run} {history : List (Event ω)} {key : String}
    {entry : MemoEntry} (c : Chronicle first history last)
    (h : first.memo.entries.get? key = some entry) : last.memo.entries.get? key = some entry := by
  induction c
  case nil between => rwa [between.memo]
  case cons event _ between _ ih =>
    rw [← between.memo] at h
    refine ih ?_
    cases event with
    | exchange made  => exact made.precedes.memo key entry h
    | leave run next => cases next <;> exact h

namespace Run

variable {ω : Type} {run after : Run} {now : Timestamp} {key : String} {accepts : Json → Bool}
  {thunk : ω → ActionResult × ω} {world world' : ω} {value : Json}

structure Recorded (before : Run) (key : String) (value : Json) (after : Run) : Prop where
  contains : after.memo.contains key
  known    : after.memo.get? key = some value
  others   : ∀ other, other ≠ key → after.memo.entries.get? other = before.memo.entries.get? other
  recalled : ∀ {ω : Type} (operations : List (Timestamp × Operation ω)) (world : ω) (now : Timestamp)
    (accepts : Json → Bool) (thunk : ω → ActionResult × ω), accepts value →
      let last := Operation.performAll operations after world
      last.1.performAction now key accepts thunk last.2 = (.returned (.ok ⟨value, false⟩), last)

structure Lost (before : Run) (key : String) (after : Run) : Prop where
  missing : after.memo.contains key = false
  memo    : after.memo = before.memo
  repeated : ∀ {ω : Type} (operations : List (Timestamp × Operation ω)) (world : ω) (now : Timestamp)
    (accepts : Json → Bool) (thunk : ω → ActionResult × ω),
      let last := Operation.performAll operations after world
      ∀ value world', thunk last.2 = (.returned value, world') →
        last.1.performAction now key accepts thunk last.2 =
          (.returned (.ok ⟨value, true⟩), last.1.recordSuccess now key value, world') ∧
        (last.1.recordSuccess now key value).memo = last.1.memo

theorem performAction_recorded
    (performed : run.performAction now key accepts thunk world =
      (.returned (.ok ⟨value, true⟩), after, world')) :
    run.memo.get? key = none ∧ after = run.recordSuccess now key value := by
  rw [performAction] at performed
  cases known : run.memo.get? key with
  | some stored =>
    simp only [known, recalled] at performed
    split at performed <;> cases performed
  | none =>
    rcases ran : thunk world with ⟨_ | _ | _, _⟩ <;> simp only [known, ran] at performed <;>
      cases performed
    exact ⟨rfl, rfl⟩

theorem performAction_of_miss (miss : run.memo.get? key = none)
    (returns : thunk world = (.returned value, world')) :
    run.performAction now key accepts thunk world =
      (.returned (.ok ⟨value, true⟩), run.recordSuccess now key value, world') := by
  rw [performAction, miss, returns]

theorem performAction_of_hit (hit : run.memo.get? key = some value) (accepted : accepts value) :
    run.performAction now key accepts thunk world =
      (.returned (.ok ⟨value, false⟩), run, world) := by
  rw [performAction, hit]
  dsimp only
  rw [recalled, if_pos accepted]

theorem recorded_of_new (new : run.memo.entries.get? key = none) :
    Recorded run key value (run.recordSuccess now key value) := by
  have known : (run.recordSuccess now key value).memo.get? key = some value := by
    rw [recordSuccess, audit, ActionMemo.get?_record, if_pos ⟨rfl, new⟩]
  refine {
    contains := by rw [ActionMemo.contains, known]; rfl
    known
    others   := fun other differs => ?others
    recalled := fun operations world _ accepts thunk accepted => ?recalled
  }
  case others =>
    rw [recordSuccess, audit, ActionMemo.record, Dict.get?_insertIfNew, if_neg (Ne.symm differs)]
  case recalled =>
    have grows :=
      (Operation.history_chronicle operations (run.recordSuccess now key value) world).memo_grows
    exact performAction_of_hit (grows.keeps key value known) accepted

theorem memo_recordSuccess_of_listed {entry : MemoEntry}
    (there : run.memo.entries.get? key = some entry) :
    (run.recordSuccess now key value).memo = run.memo := by
  have same : run.memo.entries.insertIfNew key ⟨true, some value⟩ = run.memo.entries := by
    refine Dict.ext_get? fun other => ?_
    rw [Dict.get?_insertIfNew]
    split
    case isTrue h => rw [← h, there]; rfl
    case isFalse  => rfl
  rw [recordSuccess, audit, ActionMemo.record, same]

theorem lost_of_unexecuted {entry : MemoEntry} (there : run.memo.entries.get? key = some entry)
    (unexecuted : entry.executed = false) :
    Lost run key (run.recordSuccess now key value) := by
  have memo : (run.recordSuccess now key value).memo = run.memo := memo_recordSuccess_of_listed there
  refine { memo, missing := ?missing, repeated := ?repeated }
  case missing =>
    rw [memo, ActionMemo.contains, ActionMemo.get?_of_unexecuted there unexecuted]
    rfl
  case repeated =>
    intro ω operations world again accepts thunk last value' world' returns
    have there : last.1.memo.entries.get? key = some entry :=
      (Operation.history_chronicle operations _ world).entry_kept (memo ▸ there)
    have miss := ActionMemo.get?_of_unexecuted there unexecuted
    exact ⟨performAction_of_miss miss returns, memo_recordSuccess_of_listed there⟩

-- A memo may be loaded from a document that holds an entry of an action that was not executed. Such
-- an entry is no result, but it is not replaced by one either: the action is performed whenever it
-- is asked for.
theorem recorded_or_lost
    (performed : run.performAction now key accepts thunk world =
      (.returned (.ok ⟨value, true⟩), after, world')) :
    (run.memo.entries.get? key = none ∧ Recorded run key value after) ∨
      ∃ entry, run.memo.entries.get? key = some entry ∧ entry.executed = false ∧
        Lost run key after := by
  obtain ⟨miss, rfl⟩ := performAction_recorded performed
  cases there : run.memo.entries.get? key with
  | none => exact .inl ⟨rfl, recorded_of_new there⟩
  | some entry =>
    have unexecuted : entry.executed = false := by
      simpa [ActionMemo.get?, there, Option.filter] using miss
    exact .inr ⟨entry, rfl, unexecuted, lost_of_unexecuted there unexecuted⟩

namespace Invoice

def document : Json :=
  .ofMembers [("currentStep", .string "bill"), ("actionMemo", .ofMembers
    [("invoice", .ofMembers [("executed", .bool false)]),
      ("draft", .ofMembers [("executed", .bool false), ("result", .nat 3)])])]

def loaded : Run :=
  { create "" "bill" with
    memo     := ⟨.ofPairs [("invoice", ⟨false, none⟩), ("draft", ⟨false, some (.nat 3)⟩)]⟩
    auditLog := none }

def issue (issued : Nat) : ActionResult × Nat :=
  (.returned (.nat issued), issued + 1)

def bill (key : String) (run : Run) (issued : Nat) :
    Outcome (Except Error ActionOutput) × Run × Nat :=
  run.performAction default key (fun _ => true) issue issued

theorem receipt_recorded :
    ofJson? document = some loaded ∧
      bill "receipt" loaded 1 = (.returned (.ok ⟨.nat 1, true⟩), (bill "receipt" loaded 1).2.1, 2) ∧
      loaded.memo.entries.get? "receipt" = none ∧
      Recorded loaded "receipt" (.nat 1) (bill "receipt" loaded 1).2.1 := by
  have performed :
      bill "receipt" loaded 1 = (.returned (.ok ⟨.nat 1, true⟩), (bill "receipt" loaded 1).2.1, 2) :=
    rfl
  have new : loaded.memo.entries.get? "receipt" = none := by decide +kernel
  refine ⟨by decide +kernel, performed, new, ?_⟩
  rcases recorded_or_lost performed with ⟨_, recorded⟩ | ⟨_, listed, _⟩
  · exact recorded
  · cases new.symm.trans listed

-- Two invoices are issued, each said to be recorded, and the memo knows of none.
theorem invoiced_twice :
    ∃ first second,
      ofJson? document = some loaded ∧
      bill "invoice" loaded 1 = (.returned (.ok ⟨.nat 1, true⟩), first, 2) ∧
      first.memo.contains "invoice" = false ∧
      bill "invoice" first 2 = (.returned (.ok ⟨.nat 2, true⟩), second, 3) :=
  ⟨_, _, by decide +kernel, rfl, by decide +kernel, rfl⟩

end Invoice

end Run

end DurableWorkflow
