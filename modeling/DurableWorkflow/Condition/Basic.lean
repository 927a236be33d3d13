import DurableWorkflow.Condition.Evaluation
import DurableWorkflow.Condition.Grammar
import DurableWorkflow.Condition.Spelling
import DurableWorkflow.Data.Outcome
import DurableWorkflow.Error

namespace DurableWorkflow

-- The guard of a connection: an expression over the state of a run. The state is bound to the name
-- `state`, and each member of an object state also to its own name, so that the prefix `state.` may
-- be left out. An expression that has no value does not hold.
structure Condition where
  source : String
  expr : Condition.Expr

namespace Condition

def parse (source : String) : Outcome (Except Error Condition) :=
  match Expr.parse (normalize source) with
  | .ok expr => .returned (.ok { source, expr })
  | .error .invalid => .returned (.error (.invalidCondition source))
  | .error .panicked => .panicked

def describe (condition : Condition) : String :=
  "Condition \x7b source: " ++ Text.quote condition.source ++ ", .. \x7d"

-- The variables that a condition sees. Where names coincide, `state` goes before the members of the
-- state, and these before `undefined`.
def bindings (state : Json) : Variables :=
  let members := (state.asMembers?.getD []).map fun (name, value) => (name, Value.ofJson value)
  ("state", Value.ofJson state) :: members ++ [("undefined", .null)]

def evaluate (condition : Condition) (state : Json) : Outcome Bool :=
  match condition.expr.eval [] (bindings state) with
  | .ok value => .returned value.holds
  | .error .panicked => .panicked
  | .error _ => .returned false

end Condition

end DurableWorkflow
