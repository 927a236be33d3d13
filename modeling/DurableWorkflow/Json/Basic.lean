import DurableWorkflow.Data.Dict
import DurableWorkflow.Data.Word
import DurableWorkflow.Double.Basic

namespace DurableWorkflow

inductive Number
  | int (value : Int)
  | double (value : Double)
  deriving DecidableEq

-- The data that runs carry: states, payloads, filters, action results. Object members are kept in
-- ascending key order by `Json.insert` and by the reader of JSON texts. Integers and doubles are
-- different numbers even where they denote the same quantity.
inductive Json
  | null
  | bool (value : Bool)
  | number (value : Number)
  | string (value : String)
  | array (items : List Json)
  | object (members : List (String × Json))

namespace Json

instance : Inhabited Json := ⟨.null⟩

mutual

def decEq : (first second : Json) → Decidable (first = second)
  | .null, .null => .isTrue rfl
  | .bool a, .bool b => decidable_of_iff (a = b) (by simp)
  | .number a, .number b => decidable_of_iff (a = b) (by simp)
  | .string a, .string b => decidable_of_iff (a = b) (by simp)
  | .array a, .array b =>
    match decEqItems a b with
    | .isTrue h => .isTrue (by rw [h])
    | .isFalse h => .isFalse (by simpa using h)
  | .object a, .object b =>
    match decEqMembers a b with
    | .isTrue h => .isTrue (by rw [h])
    | .isFalse h => .isFalse (by simpa using h)
  | .null, .bool _ | .null, .number _ | .null, .string _ | .null, .array _ | .null, .object _
  | .bool _, .null | .bool _, .number _ | .bool _, .string _ | .bool _, .array _
  | .bool _, .object _
  | .number _, .null | .number _, .bool _ | .number _, .string _ | .number _, .array _
  | .number _, .object _
  | .string _, .null | .string _, .bool _ | .string _, .number _ | .string _, .array _
  | .string _, .object _
  | .array _, .null | .array _, .bool _ | .array _, .number _ | .array _, .string _
  | .array _, .object _
  | .object _, .null | .object _, .bool _ | .object _, .number _ | .object _, .string _
  | .object _, .array _ => .isFalse (by simp)

def decEqItems : (first second : List Json) → Decidable (first = second)
  | [], [] => .isTrue rfl
  | [], _ :: _ | _ :: _, [] => .isFalse (by simp)
  | a :: as, b :: bs =>
    match decEq a b, decEqItems as bs with
    | .isTrue h, .isTrue hs => .isTrue (by rw [h, hs])
    | .isFalse h, _ => .isFalse (by simp [h])
    | _, .isFalse hs => .isFalse (by simp [hs])

def decEqMembers : (first second : List (String × Json)) → Decidable (first = second)
  | [], [] => .isTrue rfl
  | [], _ :: _ | _ :: _, [] => .isFalse (by simp)
  | (k, a) :: as, (l, b) :: bs =>
    match decEq a b, decEqMembers as bs with
    | .isTrue h, .isTrue hs => decidable_of_iff (k = l) (by simp [h, hs])
    | .isFalse h, _ => .isFalse (by simp [h])
    | _, .isFalse hs => .isFalse (by simp [hs])

end

instance : DecidableEq Json := decEq

mutual

-- Whether two values have the same content: doubles are compared as numbers, all else as is.
def equals : Json → Json → Bool
  | .null, .null => true
  | .bool a, .bool b => a = b
  | .number (.int a), .number (.int b) => a = b
  | .number (.double a), .number (.double b) => a.equals b
  | .string a, .string b => a = b
  | .array a, .array b => equalItems a b
  | .object a, .object b => equalMembers a b
  | _, _ => false

def equalItems : List Json → List Json → Bool
  | [], [] => true
  | a :: as, b :: bs => equals a b && equalItems as bs
  | _, _ => false

def equalMembers : List (String × Json) → List (String × Json) → Bool
  | [], [] => true
  | (k, a) :: as, (l, b) :: bs => k = l && equals a b && equalMembers as bs
  | _, _ => false

end

def empty : Json := .object []

def nat (n : Nat) : Json := .number (.int n)

def int (i : Int) : Json := .number (.int i)

def strings (items : List String) : Json := .array (items.map .string)

def ofMembers (members : List (String × Json)) : Json := .object (Entries.ofPairs members)

def isNull : Json → Bool
  | .null => true
  | _ => false

def member? (key : String) : Json → Option Json
  | .object members => Entries.find? members key
  | _ => none

def field (json : Json) (key : String) : Json :=
  (json.member? key).getD .null

def put (json : Json) (key : String) (value : Json) : Json :=
  match json with
  | .object members => .object (Entries.insert key value members)
  | json => json

def assign? (json : Json) (key : String) (value : Json) : Option Json :=
  match json with
  | .null => some (.object [(key, value)])
  | .object members => some (.object (Entries.insert key value members))
  | _ => none

theorem assign?_ofMembers {members : List (String × Json)} {key : String} {value : Json} :
    (ofMembers members).assign? key value = some (ofMembers (members ++ [(key, value)])) := by
  simp [ofMembers, assign?, Entries.ofPairs]

def merge (overlay : List (String × Json)) (json : Json) : Json :=
  overlay.foldl (fun json (key, value) => json.put key value) json

def asBool? : Json → Option Bool
  | .bool value => some value
  | _ => none

def asString? : Json → Option String
  | .string value => some value
  | _ => none

def asArray? : Json → Option (List Json)
  | .array items => some items
  | _ => none

def asMembers? : Json → Option (List (String × Json))
  | .object members => some members
  | _ => none

def asInt? : Json → Option Int
  | .number (.int value) => some value
  | _ => none

def asInt64? (json : Json) : Option Int :=
  json.asInt?.filter fun value => decide (Word.FitsSigned value)

def asNat64? (json : Json) : Option Nat :=
  (json.asInt?.filter fun value => decide (Word.FitsUnsigned value)).map Int.toNat

end Json

end DurableWorkflow
