import DurableWorkflow.Condition.Expr
import DurableWorkflow.Condition.Token

namespace DurableWorkflow.Condition

-- Reading stops at the first fault: a token that fits no rule makes the source invalid, and a
-- literal without a value is a panic as soon as a token that may come after a literal, or the end,
-- follows it.
inductive ParseFault
  | invalid
  | panicked
  deriving DecidableEq

namespace Expr

abbrev Reader (α : Type) := List Token → Except ParseFault (α × List Token)

def relation? : String → Option BinaryOp
  | "<" => some .less
  | "<=" => some .lessEq
  | ">" => some .greater
  | ">=" => some .greaterEq
  | "==" => some .equal
  | "!=" => some .notEqual
  | "in" => some .isIn
  | _ => none

def sum? : String → Option BinaryOp
  | "+" => some .add
  | "-" => some .sub
  | _ => none

def product? : String → Option BinaryOp
  | "*" => some .mul
  | "/" => some .div
  | "%" => some .rem
  | _ => none

def unary? : String → Option UnaryOp
  | "!" => some .not
  | "!!" => some .notNot
  | "-" => some .minus
  | "--" => some .minusMinus
  | _ => none

def operator? {α : Type} (table : String → Option α) : List Token → Option (α × List Token)
  | .mark text :: rest => (table text).map (·, rest)
  | _ => none

def expect (text : String) : Reader Unit
  | .mark found :: rest => if found = text then .ok ((), rest) else .error .invalid
  | _ => .error .invalid

def joinLeft (table : String → Option BinaryOp) (operand : Reader Expr) :
    (fuel : Nat) → (left : Expr) → Reader Expr
  | 0, _, _ => .error .invalid
  | fuel + 1, left, tokens =>
    match operator? table tokens with
    | none => .ok (left, tokens)
    | some (op, rest) => do
      let (right, rest) ← operand rest
      joinLeft table operand fuel (.binary op left right) rest

def commaList {α : Type} (item : Reader α) (close : String) : (fuel : Nat) → Reader (List α)
  | 0, _ => .error .invalid
  | fuel + 1, tokens =>
    match expect close tokens with
    | .ok (_, rest) => .ok ([], rest)
    | .error _ => do
      let (first, rest) ← item tokens
      match expect close rest with
      | .ok (_, rest) => .ok ([first], rest)
      | .error _ =>
        let (_, rest) ← expect "," rest
        let (others, rest) ← commaList item close fuel rest
        pure (first :: others, rest)

def pair {α β : Type} (first : Reader α) (second : Reader β) : Reader (α × β) := fun tokens => do
  let (left, rest) ← first tokens
  let (_, rest) ← expect ":" rest
  let (right, rest) ← second rest
  pure ((left, right), rest)

def anyName : Reader String
  | .name text :: rest => .ok (text, rest)
  | _ => .error .invalid

def suffixes (expr : Reader Expr) : (fuel : Nat) → Expr → Reader Expr
  | 0, _, _ => .error .invalid
  | fuel + 1, operand, tokens =>
    match tokens with
    | .mark "." :: rest => do
      let (name, rest) ← anyName rest
      match expect "(" rest with
      | .ok (_, rest) =>
        let (args, rest) ← commaList expr ")" fuel rest
        suffixes expr fuel (.call name (some operand) args) rest
      | .error _ => suffixes expr fuel (.member operand name) rest
    | .mark "[" :: rest => do
      let (position, rest) ← expr rest
      let (_, rest) ← expect "]" rest
      suffixes expr fuel (.index operand position) rest
    | .mark "\x7b" :: rest => do
      let (fields, rest) ← commaList (pair anyName expr) "\x7d" fuel rest
      suffixes expr fuel (.construct operand fields) rest
    | tokens => .ok (operand, tokens)

def afterLiteral : List String :=
  ["||", "&&", "?", ":", "<", "<=", ">", ">=", "==", "!=", "in", "+", "-", "*", "/", "%", ".", ",",
    "[", "]", ")", "\x7b", "\x7d"]

-- What a literal without a value comes to, given the tokens after it.
def malformedFault : List Token → ParseFault
  | [] => .panicked
  | .mark text :: _ => if text ∈ afterLiteral then .panicked else .invalid
  | _ => .invalid

def nameOrCall (expr : Reader Expr) (fuel : Nat) (tokens : List Token) :
    Except ParseFault (Expr × List Token) := do
  let (name, rest) ← anyName tokens
  match expect "(" rest with
  | .ok (_, rest) =>
    let (args, rest) ← commaList expr ")" fuel rest
    pure (.call name none args, rest)
  | .error _ => pure (.variable name, rest)

def primary (expr : Reader Expr) (fuel : Nat) (tokens : List Token) :
    Except ParseFault (Expr × List Token) :=
  match tokens with
  | .malformed :: rest => .error (malformedFault rest)
  | .int value :: rest => .ok (.literal (.int value), rest)
  | .double value :: rest => .ok (.literal (.double value), rest)
  | .string value :: rest => .ok (.literal (.string value), rest)
  | .bytes value :: rest => .ok (.literal (.bytes value), rest)
  | .mark "true" :: rest => .ok (.literal (.bool true), rest)
  | .mark "false" :: rest => .ok (.literal (.bool false), rest)
  | .mark "null" :: rest => .ok (.literal .null, rest)
  | .mark "." :: rest => nameOrCall expr fuel rest
  | .name text :: rest => nameOrCall expr fuel (.name text :: rest)
  | .mark "(" :: rest => do
    let (inner, rest) ← expr rest
    let (_, rest) ← expect ")" rest
    pure (inner, rest)
  | .mark "[" :: rest => do
    let (items, rest) ← commaList expr "]" fuel rest
    pure (.list items, rest)
  | .mark "\x7b" :: rest => do
    let (entries, rest) ← commaList (pair expr expr) "\x7d" fuel rest
    pure (.map entries, rest)
  | _ => .error .invalid

def unaryLevel (expr : Reader Expr) (fuel : Nat) (tokens : List Token) :
    Except ParseFault (Expr × List Token) :=
  let operand : Reader Expr := fun tokens => do
    let (first, rest) ← primary expr fuel tokens
    suffixes expr fuel first rest
  match operator? unary? tokens with
  | none => operand tokens
  | some (op, rest) => do
    let (inner, rest) ← operand rest
    pure (.unary op inner, rest)

def level (table : String → Option BinaryOp) (operand : Reader Expr) (fuel : Nat) : Reader Expr :=
  fun tokens => do
    let (first, rest) ← operand tokens
    joinLeft table operand fuel first rest

def relationLevel (operand : Reader Expr) : Reader Expr := fun tokens => do
  let (left, rest) ← operand tokens
  match operator? relation? rest with
  | none => pure (left, rest)
  | some (op, rest) =>
    let (right, rest) ← operand rest
    pure (.binary op left right, rest)

def only (text : String) (op : BinaryOp) (found : String) : Option BinaryOp :=
  if found = text then some op else none

def read : (fuel : Nat) → Reader Expr
  | 0, _ => .error .invalid
  | fuel + 1, tokens => do
    let sums := level sum? (level product? (unaryLevel (read fuel) fuel) fuel) fuel
    let ands := level (only "&&" .and) (relationLevel sums) fuel
    let ors := level (only "||" .or) ands fuel
    let (test, rest) ← ors tokens
    match expect "?" rest with
    | .error _ => pure (test, rest)
    | .ok (_, rest) =>
      let (yes, rest) ← ors rest
      let (_, rest) ← expect ":" rest
      let (no, rest) ← read fuel rest
      pure (.conditional test yes no, rest)

-- Reads a source that is one expression. No list or nesting is longer than the tokens, so the fuel
-- suffices.
def parse (source : String) : Except ParseFault Expr :=
  let tokens := Token.scan source
  match read (tokens.length + 2) tokens with
  | .ok (expr, []) => .ok expr
  | .ok _ => .error .invalid
  | .error fault => .error fault

end Expr

end DurableWorkflow.Condition
