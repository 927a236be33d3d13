namespace DurableWorkflow.Text

def replacement : Char := '\ufffd'

-- A character of which the first bytes have been read: the value of these, the range of the next
-- byte, and the number of bytes after that one.
structure Begun where
  value : Nat
  low : Nat
  high : Nat
  more : Nat

-- The character that a byte begins, if it begins one of several bytes. The range of the second
-- byte leaves out values that have a shorter form, surrogates and values past the last character.
def Begun.ofByte? (byte : Nat) : Option Begun :=
  if byte < 0xC2 then none
  else if byte < 0xE0 then some ⟨byte - 0xC0, 0x80, 0xBF, 0⟩
  else if byte < 0xF0 then
    some ⟨byte - 0xE0, if byte = 0xE0 then 0xA0 else 0x80, if byte = 0xED then 0x9F else 0xBF, 1⟩
  else if byte < 0xF5 then
    some ⟨byte - 0xF0, if byte = 0xF0 then 0x90 else 0x80, if byte = 0xF4 then 0x8F else 0xBF, 2⟩
  else none

def firstByte (byte : Nat) : List Char × Option Begun :=
  if byte < 0x80 then ([Char.ofNat byte], none)
  else
    match Begun.ofByte? byte with
    | some begun => ([], some begun)
    | none => ([replacement], none)

def Begun.nextByte (begun : Begun) (byte : Nat) : List Char × Option Begun :=
  if begun.low ≤ byte ∧ byte ≤ begun.high then
    let value := 64 * begun.value + (byte - 0x80)
    match begun.more with
    | 0 => ([Char.ofNat value], none)
    | more + 1 => ([], some ⟨value, 0x80, 0xBF, more⟩)
  else
    let (chars, begun) := firstByte byte
    (replacement :: chars, begun)

def decodeFrom : Option Begun → List UInt8 → List Char
  | none, [] => []
  | some _, [] => [replacement]
  | pending, byte :: rest =>
    let (chars, pending) :=
      match pending with
      | none => firstByte byte.toNat
      | some begun => begun.nextByte byte.toNat
    chars ++ decodeFrom pending rest

-- Reads bytes as UTF-8. Where they are no character, the longest beginning of one, or else a single
-- byte, is read as the replacement character.
def decode (bytes : List UInt8) : String :=
  String.ofList (decodeFrom none bytes)

end DurableWorkflow.Text
