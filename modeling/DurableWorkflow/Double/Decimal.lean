import DurableWorkflow.Double.Arithmetic

namespace DurableWorkflow.Double

def ofDecimal (negative : Bool) (digits : Nat) (exponent : Int) : Double :=
  if digits = 0 then ofRatio negative 0 1
  else if exponent > 400 then .infinite negative
  else if exponent < -400 - (digits.log2 : Int) then ofRatio negative 0 1
  else ofRatio negative (digits * Nat.pow 10 exponent.toNat) (Nat.pow 10 (-exponent).toNat)

def digitsValue (digits : List Char) : Nat :=
  digits.foldl (fun value digit => 10 * value + (digit.toNat - '0'.toNat)) 0

def splitSign : List Char → Bool × List Char
  | '-' :: rest => (true, rest)
  | '+' :: rest => (false, rest)
  | text => (false, text)

def parseExponent? : List Char → Option Int
  | [] => some 0
  | mark :: rest =>
    let (negative, digits) := splitSign rest
    if (mark = 'e' || mark = 'E') && !digits.isEmpty && digits.all Char.isDigit then
      some (signed negative (digitsValue digits))
    else none

-- Reads a number text: a sign that may be left out, then `inf`, `infinity` or `nan` in any case, or
-- digits around at most one point, at least one of them, and an exponent that may be left out.
def parse? (text : List Char) : Option Double :=
  let (negative, body) := splitSign text
  let word := String.ofList (body.map Char.toLower)
  if word = "inf" || word = "infinity" then some (.infinite negative)
  else if word = "nan" then some .nan
  else
    let whole := body.takeWhile Char.isDigit
    let (fraction, rest) :=
      match body.dropWhile Char.isDigit with
      | '.' :: tail => (tail.takeWhile Char.isDigit, tail.dropWhile Char.isDigit)
      | tail => ([], tail)
    if whole.isEmpty && fraction.isEmpty then none
    else
      (parseExponent? rest).map fun exponent =>
        ofDecimal negative (digitsValue (whole ++ fraction)) (exponent - fraction.length)

structure Decimal where
  digits : Nat
  exponent : Int
  deriving DecidableEq

def compareScaled (a : Nat) (i : Int) (b : Nat) (j : Int) : Ordering :=
  compare ((a * Nat.pow 10 i.toNat) <<< (-j).toNat) ((b * Nat.pow 10 (-i).toNat) <<< j.toNat)

-- Whether a decimal lies among the reals that round to `significand * 2 ^ exponent`: between the
-- midpoints to its neighbours, which belong to it when the significand is even. The neighbour below
-- a power of two is half as far away.
def readsBack (significand : Nat) (exponent : Int) (decimal : Decimal) : Bool :=
  let narrow := significand = leastFull && exponent > -1074
  let low := if narrow then 4 * significand - 1 else 4 * significand - 2
  let high := 4 * significand + 2
  let closed := significand % 2 = 0
  let toLow := compareScaled decimal.digits decimal.exponent low (exponent - 2)
  let toHigh := compareScaled decimal.digits decimal.exponent high (exponent - 2)
  (toLow = .gt || (closed && toLow = .eq)) && (toHigh = .lt || (closed && toHigh = .eq))

def scaleFrom (significand : Nat) (exponent : Int) : Nat → Int → Int
  | 0, guess => guess
  | tries + 1, guess =>
    if compareScaled 1 guess significand exponent = .gt then guess
    else scaleFrom significand exponent tries (guess + 1)

def scaleOf (significand : Nat) (exponent : Int) : Int :=
  let binary : Int := (significand.log2 : Int) + exponent
  scaleFrom significand exponent 4 ((binary * 30103).fdiv 100000)

inductive Tie
  | greater
  | even

def Tie.takesBelow (tie : Tie) (below num den : Nat) : Bool :=
  match compare (2 * num) den, tie with
  | .lt, _ => true
  | .gt, _ => false
  | .eq, .greater => false
  | .eq, .even => below % 2 = 0

-- The decimal nearest to the number on the grid of multiples of `10 ^ place`, if one of the two
-- neighbours on that grid reads back.
def onGrid? (tie : Tie) (significand : Nat) (exponent : Int) (place : Int) : Option Decimal :=
  let num := (significand * Nat.pow 10 (-place).toNat) <<< exponent.toNat
  let den := Nat.pow 10 place.toNat <<< (-exponent).toNat
  let below : Decimal := ⟨num / den, place⟩
  let above : Decimal := ⟨num / den + 1, place⟩
  match readsBack significand exponent below, readsBack significand exponent above with
  | true, true => some (if tie.takesBelow below.digits (num % den) den then below else above)
  | true, false => some below
  | false, true => some above
  | false, false => none

def Decimal.strip : Nat → Decimal → Decimal
  | 0, decimal => decimal
  | tries + 1, ⟨digits, exponent⟩ =>
    if digits ≠ 0 ∧ digits % 10 = 0 then strip tries ⟨digits / 10, exponent + 1⟩
    else ⟨digits, exponent⟩

-- The shortest decimal that reads back to `significand * 2 ^ exponent`, a positive number; of
-- several the nearest. Seventeen digits always suffice.
def shortest (tie : Tie) (significand : Nat) (exponent : Int) : Decimal :=
  let scale := scaleOf significand exponent
  let found := (List.range 17).findSome? fun (n : Nat) =>
    onGrid? tie significand exponent (scale - 1 - n)
  (found.getD ⟨significand, exponent⟩).strip 20

def Decimal.point (decimal : Decimal) : List Char × Int :=
  let digits := Nat.toDigits 10 decimal.digits
  (digits, digits.length + decimal.exponent)

def Decimal.positional (decimal : Decimal) : List Char :=
  let (digits, before) := decimal.point
  if before ≤ 0 then ['0', '.'] ++ List.replicate before.natAbs '0' ++ digits
  else if before < digits.length then
    digits.take before.toNat ++ '.' :: digits.drop before.toNat
  else digits ++ List.replicate (before.toNat - digits.length) '0'

def plain : Double → String
  | .nan => "NaN"
  | .infinite negative => if negative then "-inf" else "inf"
  | .finite negative significand exponent _ =>
    let digits :=
      if significand = 0 then ['0'] else (shortest .greater significand exponent).positional
    String.ofList (if negative then '-' :: digits else digits)

def scientific : Double → String
  | .nan | .infinite _ => "null"
  | .finite negative significand exponent _ =>
    let body :=
      if significand = 0 then "0.0".toList
      else
        let decimal := shortest .even significand exponent
        let (digits, before) := decimal.point
        if -5 < before ∧ before ≤ 16 then
          let text := decimal.positional
          if text.contains '.' then text else text ++ ['.', '0']
        else
          let power := before - 1
          let mark := if power < 0 then ['e', '-'] else ['e', '+']
          let mantissa :=
            match digits with
            | first :: second :: rest => first :: '.' :: second :: rest
            | short => short
          mantissa ++ mark ++ Nat.toDigits 10 power.natAbs
    String.ofList (if negative then '-' :: body else body)

end DurableWorkflow.Double
