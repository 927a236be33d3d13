import DurableWorkflow.Data.Word
import DurableWorkflow.Double.Decimal
import DurableWorkflow.Json.Basic

namespace DurableWorkflow.Condition

inductive Key
  | int (value : Int)
  | uint (value : Nat)
  | bool (value : Bool)
  | string (value : String)
  deriving DecidableEq

-- A place in an evaluation: the part of the expression that is evaluated, as the way to it from the
-- whole, innermost step first. Where a part is evaluated many times the turn is a step too.
abbrev Place := List Nat

-- What expressions over a state evaluate to. Numbers of different kinds compare by quantity; values
-- of different kinds otherwise differ and have no order. A list or map that an expression makes
-- carries the place where it was made, so that it is equal to itself whatever it holds, NaN
-- included.
inductive Value
  | int (value : Int)
  | uint (value : Nat)
  | double (value : Double)
  | string (value : String)
  | bytes (value : List UInt8)
  | bool (value : Bool)
  | null
  | list (origin : Option Place) (items : List Value)
  | map (origin : Option Place) (entries : List (Key × Value))
  | function (name : String) (target : Value)

namespace Value

instance : Inhabited Value := ⟨.null⟩

def lookup (entries : List (Key × Value)) (key : Key) : Option Value :=
  (entries.find? (·.1 = key)).map (·.2)

def bind (entries : List (Key × Value)) (key : Key) (value : Value) : List (Key × Value) :=
  entries.filter (·.1 ≠ key) ++ [(key, value)]

mutual

-- The value of a JSON document: integers of 64 bits with sign are integers, all other numbers are
-- doubles.
def ofJson : Json → Value
  | .null => .null
  | .bool value => .bool value
  | .number (.int value) =>
    if Word.FitsSigned value then .int value else .double (.ofInt value)
  | .number (.double value) => .double value
  | .string value => .string value
  | .array items => .list none (ofItems items)
  | .object members => .map none (ofMembers members)

def ofItems : List Json → List Value
  | [] => []
  | item :: rest => ofJson item :: ofItems rest

def ofMembers : List (String × Json) → List (Key × Value)
  | [] => []
  | (key, member) :: rest => (.string key, ofJson member) :: ofMembers rest

end

def sameOrigin : Option Place → Option Place → Bool
  | some a, some b => a = b
  | _, _ => false

mutual

def equals : Value → Value → Bool
  | .int a, .int b => a = b
  | .uint a, .uint b => a = b
  | .int a, .uint b => a = (b : Int)
  | .uint a, .int b => (a : Int) = b
  | .double a, .double b => a.equals b
  | .int a, .double b => (Double.ofInt a).equals b
  | .double a, .int b => a.equals (.ofInt b)
  | .uint a, .double b => (Double.ofNat a).equals b
  | .double a, .uint b => a.equals (.ofNat b)
  | .string a, .string b => a = b
  | .bytes a, .bytes b => a = b
  | .bool a, .bool b => a = b
  | .null, .null => true
  | .list p a, .list q b => sameOrigin p q || equalItems a b
  | .map p a, .map q b => sameOrigin p q || (a.length = b.length && equalEntries a b)
  | .function name target, .function name' target' => name = name' && equals target target'
  | _, _ => false

def equalItems : List Value → List Value → Bool
  | [], [] => true
  | a :: as, b :: bs => equals a b && equalItems as bs
  | _, _ => false

def equalEntries : List (Key × Value) → List (Key × Value) → Bool
  | [], _ => true
  | (key, value) :: rest, other =>
    (match lookup other key with
      | some found => equals value found
      | none => false) && equalEntries rest other

end

def compare? : Value → Value → Option Ordering
  | .int a, .int b => some (compare a b)
  | .uint a, .uint b => some (compare a b)
  | .int a, .uint b => some (compare a (b : Int))
  | .uint a, .int b => some (compare (a : Int) b)
  | .double a, .double b => a.compare? b
  | .int a, .double b => (Double.ofInt a).compare? b
  | .double a, .int b => a.compare? (.ofInt b)
  | .uint a, .double b => (Double.ofNat a).compare? b
  | .double a, .uint b => a.compare? (.ofNat b)
  | .string a, .string b => some (compare a b)
  | .bool a, .bool b => some (compare a.toNat b.toNat)
  | .null, .null => some .eq
  | _, _ => none

-- Whether a condition with this value holds. This is not the test that operators inside a condition
-- apply (`toBool`): the two differ on empty collections, bytes and NaN.
def holds : Value → Bool
  | .bool value => value
  | .int value => value ≠ 0
  | .uint value => value ≠ 0
  | .double value => !value.isZero && !value.isNaN
  | .string value => value ≠ ""
  | .list _ _ | .map _ _ => true
  | .null | .bytes _ | .function _ _ => false

def toBool : Value → Bool
  | .bool value => value
  | .int value => value ≠ 0
  | .uint value => value ≠ 0
  | .double value => !value.isZero
  | .string value => value ≠ ""
  | .bytes value => !value.isEmpty
  | .list _ items => !items.isEmpty
  | .map _ entries => !entries.isEmpty
  | .null | .function _ _ => false

def key? : Value → Option Key
  | .int value => some (.int value)
  | .uint value => some (.uint value)
  | .bool value => some (.bool value)
  | .string value => some (.string value)
  | _ => none

def ofKey : Key → Value
  | .int value => .int value
  | .uint value => .uint value
  | .bool value => .bool value
  | .string value => .string value

end Value

end DurableWorkflow.Condition
