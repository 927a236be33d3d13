import DurableWorkflow.Json.Basic

namespace DurableWorkflow.Json

inductive Shape
  | any
  | natural
  | integer
  | text
  | flag
  | texts
  | integers

namespace Shape

def accepts : Shape → Json → Bool
  | any, _ => true
  | natural, json => json.asNat64?.isSome
  | integer, json => json.asInt64?.isSome
  | text, json => json.asString?.isSome
  | flag, json => json.asBool?.isSome
  | texts, .array items => items.all fun item => item.asString?.isSome
  | integers, .object members => members.all fun (_, value) => value.asInt64?.isSome
  | _, _ => false

def read? (shape : Shape) (json : Json) : Option Json :=
  if shape.accepts json then some json else none

end Shape

end DurableWorkflow.Json
