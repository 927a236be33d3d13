import DurableWorkflow.Json.Basic

namespace DurableWorkflow

structure MemoEntry where
  executed : Bool
  result : Option Json
  deriving DecidableEq

structure ActionMemo where
  entries : Dict MemoEntry
  deriving DecidableEq

namespace ActionMemo

def empty : ActionMemo := ⟨.empty⟩

instance : Inhabited ActionMemo := ⟨empty⟩

-- The recorded result of `key`, if the action was executed; a missing result is `null`.
def get? (memo : ActionMemo) (key : String) : Option Json :=
  ((memo.entries.get? key).filter (·.executed)).map fun entry => entry.result.getD .null

def contains (memo : ActionMemo) (key : String) : Bool :=
  (memo.get? key).isSome

-- Records the result of an executed action, unless the key has an entry.
def record (memo : ActionMemo) (key : String) (result : Json) : ActionMemo :=
  ⟨memo.entries.insertIfNew key ⟨true, some result⟩⟩

@[grind =]
theorem get?_record {memo : ActionMemo} {key other : String} {result : Json} :
    (memo.record key result).get? other =
      if key = other ∧ memo.entries.get? key = none then some result else memo.get? other := by
  unfold get? record
  by_cases h : key = other
  · subst h
    cases hold : memo.entries.get? key <;> simp [Dict.get?_insertIfNew, hold, Option.filter]
  · simp [Dict.get?_insertIfNew, h]

def keys (memo : ActionMemo) : List String :=
  memo.entries.keys

def size (memo : ActionMemo) : Nat :=
  memo.entries.size

end ActionMemo

end DurableWorkflow
