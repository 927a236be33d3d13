import DurableWorkflow.Data.Word
import DurableWorkflow.Double.Decimal
import DurableWorkflow.Json.Basic

namespace DurableWorkflow.Json

-- A JSON text as it was written: members in their order, repeated ones included. A number past the
-- doubles and a string with an unpaired surrogate escape are `none`.
inductive Raw
  | null
  | bool (value : Bool)
  | number (value : Option Number)
  | string (value : Option String)
  | array (items : List Raw)
  | object (members : List (Option String × Raw))

namespace Raw

instance : Inhabited Raw := ⟨.null⟩

def isBlank (c : Char) : Bool :=
  c = ' ' || c = '\n' || c = '\t' || c = '\r'

def skipBlanks (text : List Char) : List Char :=
  text.dropWhile isBlank

inductive Piece
  | char (c : Char)
  | unit (code : Nat)

def hexDigit? (c : Char) : Option Nat :=
  if c.isDigit then some (c.toNat - '0'.toNat)
  else if 'a' ≤ c && c ≤ 'f' then some (c.toNat - 'a'.toNat + 10)
  else if 'A' ≤ c && c ≤ 'F' then some (c.toNat - 'A'.toNat + 10)
  else none

def hexValue? (digits : List Char) : Option Nat :=
  digits.foldlM (fun value c => (hexDigit? c).map (16 * value + ·)) 0

def escaped? : Char → Option Char
  | '"' => some '"'
  | '\\' => some '\\'
  | '/' => some '/'
  | 'b' => some '\x08'
  | 'f' => some '\x0c'
  | 'n' => some '\n'
  | 'r' => some '\r'
  | 't' => some '\t'
  | _ => none

def lexString : List Char → Option (List Piece × List Char)
  | '"' :: rest => some ([], rest)
  | '\\' :: 'u' :: a :: b :: c :: d :: rest => do
    let code ← hexValue? [a, b, c, d]
    let (pieces, rest) ← lexString rest
    pure (.unit code :: pieces, rest)
  | '\\' :: letter :: rest => do
    let c ← escaped? letter
    let (pieces, rest) ← lexString rest
    pure (.char c :: pieces, rest)
  | c :: rest =>
    if c.toNat < 0x20 then none
    else do
      let (pieces, rest) ← lexString rest
      pure (.char c :: pieces, rest)
  | [] => none

def isHighSurrogate (code : Nat) : Bool := 0xD800 ≤ code && code < 0xDC00

def isLowSurrogate (code : Nat) : Bool := 0xDC00 ≤ code && code < 0xE000

-- Joins the pieces of a literal; two surrogate units in a row are one character.
def joinPieces : List Piece → Option (List Char)
  | [] => some []
  | .char c :: rest => (joinPieces rest).map (c :: ·)
  | .unit high :: .unit low :: rest =>
    if isHighSurrogate high && isLowSurrogate low then
      (joinPieces rest).map (Char.ofNat (0x10000 + (high - 0xD800) * 0x400 + (low - 0xDC00)) :: ·)
    else if isHighSurrogate high || isLowSurrogate high then none
    else (joinPieces (.unit low :: rest)).map (Char.ofNat high :: ·)
  | .unit code :: rest =>
    if isHighSurrogate code || isLowSurrogate code then none
    else (joinPieces rest).map (Char.ofNat code :: ·)

def absorb (significand : Nat) : List Char → Nat × List Char
  | [] => (significand, [])
  | digit :: rest =>
    let longer := 10 * significand + (digit.toNat - '0'.toNat)
    if longer ≤ Word.maxUnsigned then absorb longer rest else (significand, digit :: rest)

-- `value * 10 ^ exponent`, rounded once more after the power of ten was rounded; a power past the
-- doubles is divided by in parts. `none` past the doubles.
def scaleByTen (value : Double) (exponent : Int) : Option Double :=
  if 0 ≤ exponent then
    if value.isZero then some value
    else if 308 < exponent then none
    else
      let product := value.mul (.ofDecimal false 1 exponent)
      if product.isFinite then some product else none
  else if -308 ≤ exponent then some (value.div (.ofDecimal false 1 (-exponent)))
  else if value.isZero then some value
  else scaleByTen (value.div (.ofDecimal false 1 308)) (exponent + 308)
termination_by (-exponent).toNat

-- The number denoted by a literal: an integer if it has neither point nor exponent, is not `-0`
-- and fits 64 bits with or without sign; otherwise a double.
def numberOf (negative : Bool) (whole : List Char) (fraction : Option (List Char))
    (exponent : Option Int) : Option Number :=
  let (significand, overflow) := absorb 0 whole
  if fraction.isNone && exponent.isNone && overflow.isEmpty &&
      (!negative || (significand ≠ 0 && Word.FitsSigned (-significand))) then
    some (.int (Double.signed negative significand))
  else
    let (significand, unread) := absorb significand (fraction.getD [])
    let places : Int := overflow.length - ((fraction.getD []).length - unread.length : Nat)
    (scaleByTen (.ofNat significand) (places + exponent.getD 0)).map fun value =>
      .double (if negative then value.neg else value)

def lexWhole : List Char → Option (List Char × List Char)
  | '0' :: rest => some (['0'], rest)
  | text =>
    let digits := text.takeWhile Char.isDigit
    if digits.isEmpty then none else some (digits, text.dropWhile Char.isDigit)

def lexFraction : List Char → Option (Option (List Char) × List Char)
  | '.' :: rest =>
    let digits := rest.takeWhile Char.isDigit
    if digits.isEmpty then none else some (some digits, rest.dropWhile Char.isDigit)
  | text => some (none, text)

def lexExponent : List Char → Option (Option Int × List Char)
  | [] => some (none, [])
  | mark :: rest =>
    if mark = 'e' || mark = 'E' then
      let (negative, rest) := Double.splitSign rest
      let digits := rest.takeWhile Char.isDigit
      if digits.isEmpty then none
      else
        let value := Double.signed negative (Double.digitsValue digits)
        some (some value, rest.dropWhile Char.isDigit)
    else some (none, mark :: rest)

def lexUnsigned (negative : Bool) (text : List Char) : Option (Raw × List Char) := do
  let (whole, text) ← lexWhole text
  let (fraction, text) ← lexFraction text
  let (exponent, text) ← lexExponent text
  pure (.number (numberOf negative whole fraction exponent), text)

def lexNumber : List Char → Option (Raw × List Char)
  | '-' :: text => lexUnsigned true text
  | text => lexUnsigned false text

def dropWord? (word : String) (text : List Char) : Option (List Char) :=
  if word.toList.isPrefixOf text then some (text.drop word.length) else none

def stringLiteral : List Char → Option (Option String × List Char)
  | '"' :: rest =>
    (lexString rest).map fun (pieces, rest) => ((joinPieces pieces).map String.ofList, rest)
  | _ => none

mutual

def value : (fuel : Nat) → List Char → Option (Raw × List Char)
  | 0, _ => none
  | fuel + 1, text =>
    match skipBlanks text with
    | '"' :: rest =>
      (stringLiteral ('"' :: rest)).map fun (literal, rest) => (.string literal, rest)
    | '[' :: rest =>
      match skipBlanks rest with
      | ']' :: rest => some (.array [], rest)
      | rest => (items fuel rest).map fun (items, rest) => (.array items, rest)
    | '{' :: rest =>
      match skipBlanks rest with
      | '}' :: rest => some (.object [], rest)
      | rest => (members fuel rest).map fun (members, rest) => (.object members, rest)
    | 'n' :: rest => (dropWord? "ull" rest).map (.null, ·)
    | 't' :: rest => (dropWord? "rue" rest).map (.bool true, ·)
    | 'f' :: rest => (dropWord? "alse" rest).map (.bool false, ·)
    | text => lexNumber text

def items : (fuel : Nat) → List Char → Option (List Raw × List Char)
  | 0, _ => none
  | fuel + 1, text => do
    let (item, rest) ← value fuel text
    match skipBlanks rest with
    | ',' :: rest =>
      let (items, rest) ← items fuel rest
      pure (item :: items, rest)
    | ']' :: rest => pure ([item], rest)
    | _ => none

def members : (fuel : Nat) → List Char → Option (List (Option String × Raw) × List Char)
  | 0, _ => none
  | fuel + 1, text => do
    let (key, rest) ← stringLiteral (skipBlanks text)
    match skipBlanks rest with
    | ':' :: rest =>
      let (member, rest) ← value fuel rest
      match skipBlanks rest with
      | ',' :: rest =>
        let (members, rest) ← members fuel rest
        pure ((key, member) :: members, rest)
      | '}' :: rest => pure ([(key, member)], rest)
      | _ => none
    | _ => none

end

-- Reads a text that is one value, with blanks around it. Every level of the recursion reads a
-- character of the text or is followed by one that does, so the fuel suffices.
def parse? (text : String) : Option Raw :=
  let chars := text.toList
  match value (2 * chars.length + 2) chars with
  | some (raw, rest) => if (skipBlanks rest).isEmpty then some raw else none
  | none => none

mutual

-- The value a text denotes, with at most `depth` containers around any part of it. Of a repeated
-- member the last one counts.
def toJson? : (depth : Nat) → Raw → Option Json
  | _, .null => some .null
  | _, .bool value => some (.bool value)
  | _, .number value => value.map .number
  | _, .string value => value.map .string
  | 0, .array _ | 0, .object _ => none
  | depth + 1, .array items => (itemsToJson? depth items).map .array
  | depth + 1, .object members => (membersToJson? depth members).map Json.ofMembers

def itemsToJson? : (depth : Nat) → List Raw → Option (List Json)
  | _, [] => some []
  | depth, item :: rest => do
    let item ← toJson? depth item
    let rest ← itemsToJson? depth rest
    pure (item :: rest)

def membersToJson? : (depth : Nat) → List (Option String × Raw) → Option (List (String × Json))
  | _, [] => some []
  | depth, (key, member) :: rest => do
    let key ← key
    let member ← toJson? depth member
    let rest ← membersToJson? depth rest
    pure ((key, member) :: rest)

end

end Raw

def maxDepth : Nat := 127

def parse? (text : String) : Option Json := do
  let raw ← Raw.parse? text
  raw.toJson? maxDepth

end DurableWorkflow.Json
