import DurableWorkflow.Condition.Value
import DurableWorkflow.Data.Word
import DurableWorkflow.Text.Utf8

namespace DurableWorkflow.Condition

inductive Fault
  | noSuchKey
  | failed
  | panicked
  deriving DecidableEq

abbrev Eval (α : Type) := Except Fault α

abbrev Variables := List (String × Value)

-- A call passes its arguments unevaluated: an argument holds the value that its expression has
-- under given variables, and its name if the expression is one. So functions decide what they
-- evaluate, and the ones that bind a variable (`map`, `filter`, `all`, …) evaluate one argument
-- many times, once for each turn.
structure Argument where
  name? : Option String
  value : (turn : Nat) → Variables → Eval Value

namespace Value

def parseInteger? (signed : Bool) (text : List Char) : Option Int :=
  let (negative, digits) := Double.splitSign text
  if digits.isEmpty || !digits.all Char.isDigit || (negative && !signed) then none
  else some (Double.signed negative (Double.digitsValue digits))

def withinInt? (value : Int) : Option Value :=
  if Word.FitsSigned value then some (.int value) else none

def withinUint? (value : Int) : Option Value :=
  if Word.FitsUnsigned value then some (.uint value.toNat) else none

def notOutside (low high : Int) (value : Double) : Bool :=
  value.compare? (.ofInt low) ≠ some .lt && value.compare? (.ofInt high) ≠ some .gt

def truncateWithin (low high : Int) (value : Double) : Int :=
  max low (min high (value.truncate?.getD 0))

def toInt? : Value → Option Value
  | .int value => some (.int value)
  | .uint value => withinInt? value
  | .double value =>
    if notOutside Word.minSigned (Word.maxSigned + 1) value then
      some (.int (truncateWithin Word.minSigned Word.maxSigned value))
    else none
  | .string text => (parseInteger? true text.toList).bind withinInt?
  | _ => none

def toUint? : Value → Option Value
  | .int value => withinUint? value
  | .uint value => some (.uint value)
  | .double value =>
    if notOutside 0 (Word.maxUnsigned + 1) value then
      some (.uint (truncateWithin 0 Word.maxUnsigned value).toNat)
    else none
  | .string text => (parseInteger? false text.toList).bind withinUint?
  | _ => none

def toDouble? : Value → Option Value
  | .int value => some (.double (.ofInt value))
  | .uint value => some (.double (.ofNat value))
  | .double value => some (.double value)
  | .string text => (Double.parse? text.toList).map .double
  | _ => none

def toText? : Value → Option Value
  | .int value => some (.string (toString value))
  | .uint value => some (.string (toString value))
  | .double value => some (.string value.plain)
  | .string text => some (.string text)
  | .bytes content => some (.string (Text.decode content))
  | _ => none

end Value

inductive Function
  | size
  | has
  | contains
  | startsWith
  | endsWith
  | map
  | filter
  | all
  | exists
  | existsOne
  | max
  | int
  | uint
  | double
  | string
  | bytes
  | unsupported
  deriving DecidableEq

namespace Function

def table : List (String × Function) :=
  [("size", .size), ("has", .has), ("contains", .contains), ("startsWith", .startsWith),
    ("endsWith", .endsWith), ("map", .map), ("filter", .filter), ("all", .all),
    ("exists", .exists), ("exists_one", .existsOne), ("max", .max), ("int", .int), ("uint", .uint),
    ("double", .double), ("string", .string), ("bytes", .bytes), ("matches", .unsupported),
    ("duration", .unsupported), ("timestamp", .unsupported)]

def ofName? (name : String) : Option Function :=
  (table.find? (·.1 = name)).map (·.2)

def firstValue (vars : Variables) : List Argument → Eval (Value × List Argument)
  | [] => .error .failed
  | arg :: rest => do
    let value ← arg.value 0 vars
    pure (value, rest)

-- What a method is applied to: the target of the call, or else its first argument. Whatever keeps
-- that argument from having a value, other than a panic, is a plain failure.
def subject (vars : Variables) (target : Option Value) (args : List Argument) :
    Eval (Value × List Argument) :=
  match target with
  | some value => .ok (value, args)
  | none =>
    match firstValue vars args with
    | .error .noSuchKey => .error .failed
    | result => result

-- The variable and the body that a binding function is given after its subject. Leaving one out is
-- a panic; a first one that is no name is a failure.
def binder : List Argument → Eval (String × (Nat → Variables → Eval Value))
  | [] => .error .panicked
  | first :: rest =>
    match first.name? with
    | none => .error .failed
    | some name =>
      match rest with
      | [] => .error .panicked
      | body :: _ => .ok (name, body.value)

def elements? : Value → Option (List Value)
  | .list _ items => some items
  | .map _ entries => some (entries.map fun entry => .ofKey entry.1)
  | _ => none

def listItems? : Value → Option (List Value)
  | .list _ items => some items
  | _ => none

def orFail {α : Type} : Option α → Eval α
  | some value => .ok value
  | none => .error .failed

def isBool (expected : Bool) : Value → Bool
  | .bool value => value = expected
  | _ => false

def anyIs {α : Type} (expected : Bool) (test : α → Eval Value) : List α → Eval Bool
  | [] => .ok false
  | item :: rest => do
    let result ← test item
    if isBool expected result then pure true else anyIs expected test rest

-- Whether exactly one item makes the test true; nothing is tested after a second one.
def exactlyOne {α : Type} (test : α → Eval Value) : List α → Eval Bool
  | [] => .ok false
  | item :: rest => do
    let result ← test item
    if isBool true result then
      let another ← anyIs true test rest
      pure !another
    else exactlyOne test rest

def keep {α : Type} (test : α → Eval Value) : List α → Eval (List α)
  | [] => .ok []
  | item :: rest => do
    let result ← test item
    let others ← keep test rest
    pure (if isBool true result then item :: others else others)

-- Applies a binding function to its elements, each of which comes with the number of its turn.
def applyBinder (vars : Variables) (target : Option Value) (args : List Argument)
    (elements : Value → Option (List Value))
    (run : (Value × Nat → Eval Value) → List (Value × Nat) → Eval Value) : Eval Value := do
  let (value, args) ← subject vars target args
  let (name, body) ← binder args
  let items ← orFail (elements value)
  run (fun (item, turn) => body turn ((name, item) :: vars)) items.zipIdx

def occursIn {α : Type} [BEq α] (part : List α) : List α → Bool
  | [] => part.isEmpty
  | c :: rest => part.isPrefixOf (c :: rest) || occursIn part rest

def textContains (text part : String) : Bool :=
  occursIn part.toList text.toList

def containsValue (value part : Value) : Eval Bool :=
  match value with
  | .list _ items => .ok (items.any fun item => item.equals part)
  | .map _ entries => do
    let key ← orFail part.key?
    pure (Value.lookup entries key).isSome
  | .string text =>
    match part with
    | .string part => .ok (textContains text part)
    | _ => .ok false
  | .bytes content =>
    match part with
    | .bytes part => if part.isEmpty then .error .panicked else .ok (occursIn part content)
    | _ => .ok false
  | _ => .ok false

def asText : Value → Eval String
  | .string text => .ok text
  | _ => .error .failed

def maxFrom : (best : Value) → List Value → Eval Value
  | best, [] => .ok best
  | best, value :: rest =>
    match best.compare? value with
    | some .gt => maxFrom best rest
    | some _ => maxFrom value rest
    | none => .error .failed

def maxOf : List Value → Eval Value
  | [] => .ok .null
  | value :: rest => maxFrom value rest

def sizeOf : Value → Eval Value
  | .list _ items => .ok (.int items.length)
  | .map _ entries => .ok (.int entries.length)
  | .string text => .ok (.int text.utf8ByteSize)
  | .bytes content => .ok (.int content.length)
  | _ => .error .failed

def allValues (vars : Variables) (args : List Argument) : Eval (List Value) :=
  args.mapM fun arg => arg.value 0 vars

def call (function : Function) (place : Place) (vars : Variables) (target : Option Value)
    (args : List Argument) : Eval Value :=
  match function with
  | .size => do
    let (value, _) ← firstValue vars args
    sizeOf value
  | .has =>
    match firstValue vars args with
    | .ok _ => .ok (.bool true)
    | .error .noSuchKey => .ok (.bool false)
    | .error fault => .error fault
  | .contains => do
    let (value, args) ← subject vars target args
    let (part, _) ← firstValue vars args
    return .bool (← containsValue value part)
  | .startsWith => do
    let (value, args) ← subject vars target args
    let text ← asText value
    let (part, _) ← firstValue vars args
    return .bool ((← asText part).toList.isPrefixOf text.toList)
  | .endsWith => do
    let (value, args) ← subject vars target args
    let text ← asText value
    let (part, _) ← firstValue vars args
    return .bool ((← asText part).toList.isSuffixOf text.toList)
  | .map => applyBinder vars target args listItems? fun body items => do
    return .list place (← items.mapM body)
  | .filter => applyBinder vars target args listItems? fun test items => do
    return .list place ((← keep test items).map Prod.fst)
  | .all => applyBinder vars target args elements? fun test items => do
    return .bool !(← anyIs false test items)
  | .exists => applyBinder vars target args elements? fun test items => do
    return .bool (← anyIs true test items)
  | .existsOne => applyBinder vars target args elements? fun test items => do
    return .bool (← exactlyOne test items)
  | .max => do
    match ← allValues vars args with
    | [.list _ items] => maxOf items
    | [value] => pure value
    | values => maxOf values
  | .int => do orFail (← subject vars target args).1.toInt?
  | .uint => do orFail (← subject vars target args).1.toUint?
  | .double => do orFail (← subject vars target args).1.toDouble?
  | .string => do orFail (← subject vars target args).1.toText?
  | .bytes => do
    let (value, _) ← firstValue vars args
    return .bytes (← asText value).toUTF8.toList
  | .unsupported => .error .failed

end Function

end DurableWorkflow.Condition
