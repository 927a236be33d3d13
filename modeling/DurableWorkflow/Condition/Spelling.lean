namespace DurableWorkflow.Condition

def continuesPath (c : Char) : Bool :=
  c.isAlphanum || c = '_' || c = '.'

def isQuote (c : Char) : Bool :=
  c = '\'' || c = '"'

-- Normalizes the rest of a source, given the quote of the literal that is open and the last
-- character written. Inside a literal a backslash keeps the character after it.
def normalizeFrom : (quote : Option Char) → (last : Option Char) → List Char → List Char
  | _, _, [] => []
  | some _, _, ['\\'] => ['\\']
  | some quote, _, '\\' :: c :: rest => '\\' :: c :: normalizeFrom (some quote) (some c) rest
  | some quote, _, c :: rest =>
    c :: normalizeFrom (if c = quote then none else some quote) (some c) rest
  | none, _, '=' :: '=' :: '=' :: rest => '=' :: '=' :: normalizeFrom none (some '=') rest
  | none, _, '!' :: '=' :: '=' :: rest => '!' :: '=' :: normalizeFrom none (some '=') rest
  | none, last, 't' :: 'h' :: 'i' :: 's' :: '.' :: 's' :: 't' :: 'a' :: 't' :: 'e' :: rest =>
    if last.any continuesPath then
      't' :: 'h' :: 'i' :: 's' :: '.' :: 's' :: 't' :: 'a' :: 't' :: 'e' ::
        normalizeFrom none (some 'e') rest
    else 's' :: 't' :: 'a' :: 't' :: 'e' :: normalizeFrom none (some 'e') rest
  | none, _, c :: rest =>
    c :: normalizeFrom (if isQuote c then some c else none) (some c) rest

def normalize (source : String) : String :=
  String.ofList (normalizeFrom none none source.toList)

end DurableWorkflow.Condition
