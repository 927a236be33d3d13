import DurableWorkflow.Json.Basic

namespace DurableWorkflow.Json

-- Documents are records: objects with known members. Members of other names are ignored. A record
-- may also be written as an array of its fields in order, where fields at the end may be left out
-- as if absent from an object; `names` is that order.
def record? (names : List String) : Json → Option (List (String × Json))
  | .object members => some members
  | .array items => if items.length ≤ names.length then some (names.zip items) else none
  | _ => none

def required? {α : Type} (read : Json → Option α) (members : List (String × Json)) (name : String) :
    Option α :=
  (Entries.find? members name).bind read

def defaulted? {α : Type} (read : Json → Option α) (absent : α) (members : List (String × Json))
    (name : String) : Option α :=
  match Entries.find? members name with
  | none => some absent
  | some json => read json

def optional? {α : Type} (read : Json → Option α) (members : List (String × Json)) (name : String) :
    Option (Option α) :=
  match Entries.find? members name with
  | none | some .null => some none
  | some json => (read json).map some

def content? (members : List (String × Json)) (name : String) : Option Json :=
  Entries.find? members name

-- A word out of a fixed choice: a string, or an object that holds `null` under the word.
def word? : Json → Option String
  | .string word => some word
  | .object [(word, .null)] => some word
  | _ => none

def listOf? {α : Type} (read : Json → Option α) : Json → Option (List α)
  | .array items => items.mapM read
  | _ => none

def optionalMember (name : String) (value : Option Json) : List (String × Json) :=
  match value with
  | none => []
  | some json => [(name, json)]

end DurableWorkflow.Json
