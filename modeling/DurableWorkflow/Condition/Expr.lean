import DurableWorkflow.Condition.Value

namespace DurableWorkflow.Condition

inductive UnaryOp
  | not
  | notNot
  | minus
  | minusMinus
  deriving DecidableEq

inductive BinaryOp
  | or
  | and
  | less
  | lessEq
  | greater
  | greaterEq
  | equal
  | notEqual
  | isIn
  | add
  | sub
  | mul
  | div
  | rem
  deriving DecidableEq

inductive Expr
  | literal (value : Value)
  | variable (name : String)
  | unary (op : UnaryOp) (operand : Expr)
  | binary (op : BinaryOp) (left right : Expr)
  | conditional (test yes no : Expr)
  | list (items : List Expr)
  | map (entries : List (Expr × Expr))
  | index (collection position : Expr)
  | member (object : Expr) (name : String)
  | construct (object : Expr) (fields : List (String × Expr))
  | call (function : String) (target : Option Expr) (args : List Expr)

namespace Expr

instance : Inhabited Expr := ⟨.literal .null⟩

def name? : Expr → Option String
  | .variable name => some name
  | _ => none

end Expr

end DurableWorkflow.Condition
