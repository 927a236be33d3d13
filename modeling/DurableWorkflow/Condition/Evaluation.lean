import DurableWorkflow.Condition.Expr
import DurableWorkflow.Condition.Function
import DurableWorkflow.Data.Word

namespace DurableWorkflow.Condition

def intResult (value : Int) : Eval Value :=
  if Word.FitsSigned value then .ok (.int value) else .error .panicked

def uintResult (value : Int) : Eval Value :=
  if Word.FitsUnsigned value then .ok (.uint value.toNat) else .error .panicked

def arithmetic (onInts : Int → Int → Eval Int) (onDoubles : Double → Double → Double) :
    Value → Value → Eval Value
  | .int a, .int b => do intResult (← onInts a b)
  | .uint a, .uint b => do uintResult (← onInts a b)
  | .double a, .double b => .ok (.double (onDoubles a b))
  | .double a, .int b => .ok (.double (onDoubles a (.ofInt b)))
  | .int a, .double b => .ok (.double (onDoubles (.ofInt a) b))
  | .double a, .uint b => .ok (.double (onDoubles a (.ofNat b)))
  | .uint a, .double b => .ok (.double (onDoubles (.ofNat a) b))
  | _, _ => .error .failed

-- One part of a division of integers, the quotient or the remainder. There has to be a divisor, and
-- the quotient has to be in the range also where the remainder is asked for.
def divided (part : Int → Int → Int) (a b : Int) : Eval Int :=
  if b = 0 ∨ (a = Word.minSigned ∧ b = -1) then .error .panicked else .ok (part a b)

def plus (place : Place) : Value → Value → Eval Value
  | .string a, .string b => .ok (.string (a ++ b))
  | .list _ a, .list _ b => .ok (.list place (a ++ b))
  | .map _ a, .map _ b =>
    .ok (.map place (b.foldl (fun entries (key, value) => Value.bind entries key value) a))
  | a, b => arithmetic (fun a b => .ok (a + b)) Double.add a b

def occurs (value : Value) : Value → Eval Bool
  | .string text =>
    match value with
    | .string part => .ok (Function.textContains text part)
    | _ => .error .failed
  | .list _ items => .ok (items.any fun item => item.equals value)
  | .map _ entries =>
    match value.key? with
    | some key => .ok (Value.lookup entries key).isSome
    | none => .ok false
  | _ => .error .failed

def ordered (test : Ordering → Bool) (left right : Value) : Eval Value :=
  match left.compare? right with
  | some order => .ok (.bool (test order))
  | none => .error .failed

def BinaryOp.apply (op : BinaryOp) (place : Place) (left right : Value) : Eval Value :=
  match op with
  | .or => .ok (if left.toBool then left else right)
  | .and => .ok (.bool (left.toBool && right.toBool))
  | .less => ordered Ordering.isLT left right
  | .lessEq => ordered Ordering.isLE left right
  | .greater => ordered Ordering.isGT left right
  | .greaterEq => ordered Ordering.isGE left right
  | .equal => .ok (.bool (right.equals left))
  | .notEqual => .ok (.bool !(right.equals left))
  | .isIn => do return .bool (← occurs left right)
  | .add => plus place left right
  | .sub => arithmetic (fun a b => .ok (a - b)) Double.sub left right
  | .mul => arithmetic (fun a b => .ok (a * b)) Double.mul left right
  | .div => arithmetic (divided Int.tdiv) Double.div left right
  | .rem => arithmetic (divided Int.tmod) Double.rem left right

def UnaryOp.apply (op : UnaryOp) (value : Value) : Eval Value :=
  match op, value with
  | .not, value => .ok (.bool !value.toBool)
  | .notNot, value => .ok (.bool value.toBool)
  | .minus, .int value => intResult (-value)
  | .minus, .double value => .ok (.double value.neg)
  | .minusMinus, .int value => .ok (.int value)
  | .minusMinus, .uint value => .ok (.uint value)
  | .minusMinus, .double value => .ok (.double value)
  | _, _ => .error .failed

-- The character of a text that is the single byte at a position, if that is so. The byte ends at
-- the next position, so the last integer is a panic.
def byteAt (text : String) (position : Int) : Eval Value :=
  if position = Word.maxSigned then .error .panicked
  else
    match (text.toUTF8.toList)[position.toNat]? with
    | some byte =>
      if 0 ≤ position && byte.toNat < 0x80 then
        .ok (.string (String.singleton (Char.ofNat byte.toNat)))
      else .ok .null
    | none => .ok .null

def Key.twin? : Key → Option Key
  | .int value => if 0 ≤ value then some (.uint value.toNat) else none
  | .uint value => some (.int value)
  | .bool _ | .string _ => none

def entryAt (entries : List (Key × Value)) (key : Key) : Option Value :=
  Value.lookup entries key <|> key.twin?.bind (Value.lookup entries)

def itemAt (collection position : Value) : Eval Value :=
  match collection with
  | .list _ items =>
    match position with
    | .int i => .ok (if 0 ≤ i then items[i.toNat]?.getD .null else .null)
    | _ => .error .failed
  | .string text =>
    match position with
    | .int i => byteAt text i
    | _ => .error .failed
  | .map _ entries => do
    let key ← Function.orFail position.key?
    pure ((entryAt entries key).getD .null)
  | _ => .error .failed

def memberOf (value : Value) (name : String) : Eval Value :=
  let entry :=
    match value with
    | .map _ entries => Value.lookup entries (.string name)
    | _ => none
  match entry with
  | some member => .ok member
  | none =>
    if (Function.ofName? name).isSome then .ok (.function name value) else .error .noSuchKey

def variableOf (vars : Variables) (name : String) : Eval Value :=
  match vars.find? (·.1 = name) with
  | some (_, value) => .ok value
  | none => .error .failed

namespace Expr

mutual

-- The value of an expression at a place. No place is visited twice in an evaluation, so the place
-- of an expression is a mark of the collection that it makes.
def eval : Expr → Place → Variables → Eval Value
  | .literal value, _, _ => .ok value
  | .variable name, _, vars => variableOf vars name
  | .unary op operand, place, vars => do op.apply (← eval operand (0 :: place) vars)
  | .binary .or left right, place, vars => do
    let value ← eval left (0 :: place) vars
    if value.toBool then pure value else eval right (1 :: place) vars
  | .binary op left right, place, vars => do
    let value ← eval left (0 :: place) vars
    op.apply place value (← eval right (1 :: place) vars)
  | .conditional test yes no, place, vars => do
    let value ← eval test (0 :: place) vars
    if value.toBool then eval yes (1 :: place) vars else eval no (2 :: place) vars
  | .list items, place, vars => do return .list place (← evalItems items place vars)
  | .map entries, place, vars => do return .map place (← evalEntries entries place vars [])
  | .index collection position, place, vars => do
    let value ← eval collection (0 :: place) vars
    itemAt value (← eval position (1 :: place) vars)
  | .member object name, place, vars => do memberOf (← eval object (0 :: place) vars) name
  | .construct object _, place, vars => do
    let _ ← eval object (0 :: place) vars
    throw .failed
  | .call function target args, place, vars =>
    match Function.ofName? function with
    | none => .error .failed
    | some function => do
      let value ← evalTarget target (0 :: place) vars
      function.call place vars value (arguments args (1 :: place))

def evalTarget : Option Expr → Place → Variables → Eval (Option Value)
  | none, _, _ => .ok none
  | some target, place, vars => do return some (← eval target place vars)

def evalItems : List Expr → Place → Variables → Eval (List Value)
  | [], _, _ => .ok []
  | item :: rest, place, vars => do
    let value ← eval item (0 :: place) vars
    return value :: (← evalItems rest (1 :: place) vars)

def evalEntries :
    List (Expr × Expr) → Place → Variables → List (Key × Value) → Eval (List (Key × Value))
  | [], _, _, entries => .ok entries
  | (key, value) :: rest, place, vars, entries => do
    let key ← Function.orFail (← eval key (0 :: place) vars).key?
    let value ← eval value (1 :: place) vars
    evalEntries rest (2 :: place) vars (Value.bind entries key value)

def arguments : List Expr → Place → List Argument
  | [], _ => []
  | arg :: rest, place =>
    ⟨arg.name?, fun turn => eval arg (turn :: 0 :: place)⟩ :: arguments rest (1 :: place)

end

end Expr

end DurableWorkflow.Condition
