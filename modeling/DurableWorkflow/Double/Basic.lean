namespace DurableWorkflow

def Double.leastFull : Nat := 4503599627370496

-- The representations in use: at most 53 significant places, an exponent in range, and no
-- leading place free unless the exponent is the least one.
def Double.Canonical (significand : Nat) (exponent : Int) : Prop :=
  significand < 2 * Double.leastFull ∧ -1074 ≤ exponent ∧ exponent ≤ 971 ∧
    (Double.leastFull ≤ significand ∨ exponent = -1074)

instance (significand : Nat) (exponent : Int) :
    Decidable (Double.Canonical significand exponent) := by
  unfold Double.Canonical
  infer_instance

-- Binary floating-point numbers with 53 significant places, as exact values: a finite number is
-- `significand * 2 ^ exponent` with a sign, and every number has one representation. Each operation
-- computes its result exactly, over integers, and rounds once, a tie going to the even significand.
inductive Double
  | finite (negative : Bool) (significand : Nat) (exponent : Int)
      (canonical : Double.Canonical significand exponent)
  | infinite (negative : Bool)
  | nan
  deriving DecidableEq

namespace Double

def zero : Double := .finite false 0 (-1074) (by decide)

instance : Inhabited Double := ⟨zero⟩

def roundQuotient (num den : Nat) : Nat :=
  let quotient := num / den
  match compare (2 * (num % den)) den with
  | .lt => quotient
  | .gt => quotient + 1
  | .eq => if quotient % 2 = 0 then quotient else quotient + 1

def scaledRatio (num den : Nat) (shift : Int) : Nat × Nat :=
  (num <<< shift.toNat, den <<< (-shift).toNat)

-- The exponent at which `num / den` has 53 places before the point, or the least exponent if
-- that is greater.
def placeOf (num den : Nat) : Int :=
  let guess : Int := (num.log2 : Int) - den.log2 - 52
  let (scaledNum, scaledDen) := scaledRatio num den (-guess)
  if num = 0 then -1074
  else max (if scaledNum < leastFull * scaledDen then guess - 1 else guess) (-1074)

-- The double nearest to `± num / den`. A quotient past the largest double is infinite.
def ofRatio (negative : Bool) (num den : Nat) : Double :=
  let place := placeOf num den
  let (scaledNum, scaledDen) := scaledRatio num den (-place)
  let rounded := roundQuotient scaledNum scaledDen
  let (significand, exponent) :=
    if rounded = 2 * leastFull then (leastFull, place + 1) else (rounded, place)
  if canonical : Canonical significand exponent then .finite negative significand exponent canonical
  else .infinite negative

def ofNat (n : Nat) : Double :=
  ofRatio false n 1

def ofInt (i : Int) : Double :=
  ofRatio (decide (i < 0)) i.natAbs 1

def isNaN : Double → Bool
  | .nan => true
  | _ => false

def isFinite : Double → Bool
  | .finite .. => true
  | _ => false

def isZero : Double → Bool
  | .finite _ significand _ _ => significand = 0
  | _ => false

def neg : Double → Double
  | .finite negative significand exponent canonical =>
    .finite (!negative) significand exponent canonical
  | .infinite negative => .infinite (!negative)
  | .nan => .nan

def magnitude (significand : Nat) (exponent : Int) : Nat × Nat :=
  scaledRatio significand 1 exponent

def signed (negative : Bool) (num : Nat) : Int :=
  if negative then -num else num

def compare? : Double → Double → Option Ordering
  | .nan, _ | _, .nan => none
  | .infinite a, .infinite b => some (compare b.toNat a.toNat)
  | .infinite a, .finite .. => some (if a then .lt else .gt)
  | .finite .., .infinite b => some (if b then .gt else .lt)
  | .finite a m e _, .finite b n f _ =>
    let (leftNum, leftDen) := magnitude m e
    let (rightNum, rightDen) := magnitude n f
    some (compare (signed a (leftNum * rightDen)) (signed b (rightNum * leftDen)))

def equals (a b : Double) : Bool :=
  compare? a b = some .eq

def truncate? : Double → Option Int
  | .finite negative significand exponent _ =>
    let (num, den) := magnitude significand exponent
    some (signed negative (num / den))
  | _ => none

end Double

end DurableWorkflow
