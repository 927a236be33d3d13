import DurableWorkflow.Condition.Spelling
import DurableWorkflow.Data.Word
import DurableWorkflow.Double.Decimal
import DurableWorkflow.Text.Blank

namespace DurableWorkflow.Condition

-- Each token is the longest one that the text begins with. Where no token begins, the list ends
-- with `invalid`. A literal of the right form that has no value (an integer past 64 bits, a bad
-- escape) is `malformed`.
inductive Token
  | name (text : String)
  | int (value : Int)
  | double (value : Double)
  | string (value : String)
  | bytes (value : List UInt8)
  | mark (text : String)
  | malformed
  | invalid
  deriving DecidableEq

namespace Token

def isNameStart (c : Char) : Bool :=
  c.isAlpha || c = '_'

def isNameChar (c : Char) : Bool :=
  c.isAlphanum || c = '_'

def keywords : List String := ["true", "false", "null", "in"]

def marks : List String :=
  ["||", "&&", "<=", ">=", "==", "!=", "!!", "--", "?", ":", "<", ">", "+", "-", "*", "/", "%", "!",
    ".", ",", "(", ")", "[", "]", "\x7b", "\x7d"]

def skipBlanks : (inComment : Bool) → List Char → List Char
  | _, [] => []
  | true, c :: rest => skipBlanks (!(c = '\n' || c = '\r')) rest
  | false, '/' :: '/' :: rest => skipBlanks true rest
  | false, c :: rest => if Text.isBlank c then skipBlanks false rest else c :: rest

def digitsIn? (base : Nat) (digits : List Char) : Option Nat :=
  digits.foldlM (fun value c =>
    let digit :=
      if c.isDigit then c.toNat - '0'.toNat
      else if 'a' ≤ c.toLower && c.toLower ≤ 'f' then c.toLower.toNat - 'a'.toNat + 10
      else base
    if digit < base then some (base * value + digit) else none) 0

def escapedNumber? (base : Nat) : List Char → Option Nat
  | '+' :: digit :: digits => digitsIn? base (digit :: digits)
  | digits => digitsIn? base digits

def charOf? (base : Nat) (digits : List Char) : Option Char := do
  let code ← escapedNumber? base digits
  if h : code.isValidChar then some (Char.ofNatAux code h) else none

def simpleEscape? : Char → Option Char
  | 'a' => some '\x07'
  | 'b' => some '\x08'
  | 'v' => some '\x0b'
  | 'f' => some '\x0c'
  | 'n' => some '\n'
  | 'r' => some '\r'
  | 't' => some '\t'
  | '\\' => some '\\'
  | '?' => some '?'
  | '`' => some '`'
  | _ => none

-- The value of the text between two quotes; `none` if it holds a bad escape. A backslash before
-- the quote that does not delimit the literal is kept.
def unescape? (quote : Char) : List Char → Option (List Char)
  | [] => some []
  | '\\' :: 'x' :: a :: b :: rest => do
    let c ← charOf? 16 [a, b]
    (unescape? quote rest).map (c :: ·)
  | '\\' :: 'u' :: a :: b :: c :: d :: rest => do
    let c ← charOf? 16 [a, b, c, d]
    (unescape? quote rest).map (c :: ·)
  | '\\' :: 'U' :: a :: b :: c :: d :: e :: f :: g :: h :: rest => do
    let c ← charOf? 16 [a, b, c, d, e, f, g, h]
    (unescape? quote rest).map (c :: ·)
  | '\\' :: c :: rest =>
    if c = '\'' || c = '"' then
      (unescape? quote rest).map fun text => if c = quote then c :: text else '\\' :: c :: text
    else if '0' ≤ c && c ≤ '3' then
      match rest with
      | d :: e :: rest => do
        let c ← charOf? 8 [c, d, e]
        (unescape? quote rest).map (c :: ·)
      | _ => none
    else do
      let c ← simpleEscape? c
      (unescape? quote rest).map (c :: ·)
  | c :: rest => (unescape? quote rest).map (c :: ·)

-- The bytes of the text between two quotes of a bytes literal: escaped characters are bytes given by
-- two hexadecimal or three octal digits, others are written as UTF-8; `none` if another escape
-- occurs.
def unescapeBytes? : List Char → Option (List UInt8)
  | [] => some []
  | '\\' :: 'x' :: a :: b :: rest => do
    let byte ← escapedNumber? 16 [a, b]
    (unescapeBytes? rest).map (byte.toUInt8 :: ·)
  | '\\' :: c :: rest =>
    match rest with
    | d :: e :: rest => do
      let byte ← if '0' ≤ c && c ≤ '3' then escapedNumber? 8 [c, d, e] else none
      (unescapeBytes? rest).map (byte.toUInt8 :: ·)
    | _ => none
  | ['\\'] => none
  | c :: rest => (unescapeBytes? rest).map (String.utf8EncodeChar c ++ ·)

def unescapeRaw (quote : Char) : List Char → List Char
  | [] => []
  | '\\' :: c :: rest =>
    if c = quote then c :: unescapeRaw quote rest else '\\' :: unescapeRaw quote (c :: rest)
  | c :: rest => c :: unescapeRaw quote rest

def splitAtQuote (quote : Char) : List Char → Option (List Char × List Char)
  | [] => none
  | '\\' :: c :: rest =>
    if c = '\n' then none
    else (splitAtQuote quote rest).map fun (body, rest) => ('\\' :: c :: body, rest)
  | c :: rest =>
    if c = quote then some ([], rest)
    else (splitAtQuote quote rest).map fun (body, rest) => (c :: body, rest)

-- Splits the line that a text begins with at the closing quote of a bytes literal. A backslash
-- keeps the character after it from closing only if another quote on the line closes.
def splitLineAtQuote (quote : Char) : List Char → Option (List Char × List Char)
  | [] => none
  | '\\' :: c :: rest =>
    if c ≠ '\n' ∧ quote ∈ rest.takeWhile (· ≠ '\n') then
      (splitLineAtQuote quote rest).map fun (body, rest) => ('\\' :: c :: body, rest)
    else (splitLineAtQuote quote (c :: rest)).map fun (body, rest) => ('\\' :: body, rest)
  | c :: rest =>
    if c = quote then some ([], rest)
    else if c = '\n' then none
    else (splitLineAtQuote quote rest).map fun (body, rest) => (c :: body, rest)

def ofValue? {α : Type} (token : α → Token) : Option α → Token
  | some value => token value
  | none => .malformed

def ofString (quote : Char) (body : List Char) : Token :=
  ofValue? (fun text => .string (String.ofList text)) (unescape? quote body)

def ofRawString (quote : Char) (body : List Char) : Token :=
  .string (String.ofList (unescapeRaw quote body))

def ofBytes (body : List Char) : Token :=
  ofValue? .bytes (unescapeBytes? body)

def lexString? : List Char → Option (Token × List Char)
  | [] => none
  | first :: rest =>
    if isQuote first then
      (splitAtQuote first rest).map fun (body, rest) => (ofString first body, rest)
    else
      match rest with
      | [] => none
      | quote :: rest =>
        if !isQuote quote then none
        else if first = 'r' || first = 'R' then
          (splitAtQuote quote rest).map fun (body, rest) => (ofRawString quote body, rest)
        else if first = 'b' || first = 'B' then
          (splitLineAtQuote quote rest).map fun (body, rest) => (ofBytes body, rest)
        else none

def ofInt (negative : Bool) (digits : List Char) : Token :=
  let value := Double.signed negative (Double.digitsValue digits)
  if Word.FitsSigned value then .int value else .malformed

def ofDouble (text : List Char) : Token :=
  ofValue? .double (Double.parse? text)

def exponentLength : List Char → Nat
  | letter :: rest =>
    if letter = 'e' || letter = 'E' then
      let signLength := if rest.head?.any fun c => c = '+' || c = '-' then 1 else 0
      let digits := (rest.drop signLength).takeWhile Char.isDigit
      if digits.isEmpty then 0 else 1 + signLength + digits.length
    else 0
  | [] => 0

def doubleLength (text : List Char) : Nat :=
  let whole := text.takeWhile Char.isDigit
  let rest := text.dropWhile Char.isDigit
  let fraction := (rest.drop 1).takeWhile Char.isDigit
  if rest.head? = some '.' && !fraction.isEmpty then
    let length := whole.length + 1 + fraction.length
    length + exponentLength (text.drop length)
  else if !whole.isEmpty && exponentLength rest ≠ 0 then whole.length + exponentLength rest
  else 0

def hexLength (text : List Char) : Nat :=
  match text with
  | '0' :: x :: rest =>
    let digits := rest.takeWhile fun c => (digitsIn? 16 [c]).isSome
    if (x = 'x' || x = 'X') && !digits.isEmpty then 2 + digits.length else 0
  | _ => 0

-- An integer and the text after it. A blank and the letter `u` right after the digits belong to the
-- literal, which then has no value.
def withSuffix (token : Token) : List Char → Token × List Char
  | ' ' :: 'u' :: rest => (.malformed, rest)
  | rest => (token, rest)

-- Reads a number; a sign directly before its digits belongs to it. Hexadecimal integers have no
-- value, and an integer has no plus sign.
def lexNumber? (text : List Char) : Option (Token × List Char) :=
  let signLength := if text.head?.any fun c => c = '+' || c = '-' then 1 else 0
  let negative := text.head? = some '-'
  let body := text.drop signLength
  let digits := body.takeWhile Char.isDigit
  if doubleLength body ≠ 0 then
    let length := signLength + doubleLength body
    some (ofDouble (text.take length), text.drop length)
  else if digits.isEmpty || text.head? = some '+' then none
  else if hexLength body ≠ 0 then some (withSuffix .malformed (body.drop (hexLength body)))
  else some (withSuffix (ofInt negative digits) (body.drop digits.length))

def lexName? : List Char → Option (Token × List Char)
  | [] => none
  | c :: rest =>
    if isNameStart c then
      let text := String.ofList (c :: rest.takeWhile isNameChar)
      some (if text ∈ keywords then .mark text else .name text, rest.dropWhile isNameChar)
    else none

def lexMark? (text : List Char) : Option (Token × List Char) :=
  (marks.find? fun mark => mark.toList.isPrefixOf text).map fun mark =>
    (.mark mark, text.drop mark.length)

def lex? (text : List Char) : Option (Token × List Char) :=
  lexString? text <|> lexNumber? text <|> lexName? text <|> lexMark? text

def scanFrom : (fuel : Nat) → List Char → List Token
  | 0, _ => [.invalid]
  | fuel + 1, text =>
    match skipBlanks false text with
    | [] => []
    | text =>
      match lex? text with
      | some (token, rest) => token :: scanFrom fuel rest
      | none => [.invalid]

-- The tokens of a text. Every token takes a character, so the fuel suffices.
def scan (text : String) : List Token :=
  scanFrom (text.length + 1) text.toList

end Token

end DurableWorkflow.Condition
