import DurableWorkflow.Double.Basic

namespace DurableWorkflow.Double

-- The sum of two signed quotients, rounded. A sum of zero is positive unless both signs are
-- negative.
def add : Double → Double → Double
  | .nan, _ | _, .nan => .nan
  | .infinite a, .infinite b => if a = b then .infinite a else .nan
  | .infinite a, .finite .. => .infinite a
  | .finite .., .infinite b => .infinite b
  | .finite a m e _, .finite b n f _ =>
    let (leftNum, leftDen) := magnitude m e
    let (rightNum, rightDen) := magnitude n f
    let sum := signed a (leftNum * rightDen) + signed b (rightNum * leftDen)
    if sum = 0 then ofRatio (a && b) 0 1
    else ofRatio (decide (sum < 0)) sum.natAbs (leftDen * rightDen)

def sub (a b : Double) : Double :=
  add a b.neg

def mul : Double → Double → Double
  | .nan, _ | _, .nan => .nan
  | .infinite a, .infinite b => .infinite (a != b)
  | .infinite a, .finite b n _ _ => if n = 0 then .nan else .infinite (a != b)
  | .finite a m _ _, .infinite b => if m = 0 then .nan else .infinite (a != b)
  | .finite a m e _, .finite b n f _ =>
    let (leftNum, leftDen) := magnitude m e
    let (rightNum, rightDen) := magnitude n f
    ofRatio (a != b) (leftNum * rightNum) (leftDen * rightDen)

def div : Double → Double → Double
  | .nan, _ | _, .nan => .nan
  | .infinite _, .infinite _ => .nan
  | .infinite a, .finite b _ _ _ => .infinite (a != b)
  | .finite a _ _ _, .infinite b => ofRatio (a != b) 0 1
  | .finite a m e _, .finite b n f _ =>
    if n = 0 then
      if m = 0 then .nan else .infinite (a != b)
    else
      let (leftNum, leftDen) := magnitude m e
      let (rightNum, rightDen) := magnitude n f
      ofRatio (a != b) (leftNum * rightDen) (leftDen * rightNum)

def rem : Double → Double → Double
  | .nan, _ | _, .nan | .infinite _, _ => .nan
  | .finite a m e h, .infinite _ => .finite a m e h
  | .finite a m e _, .finite _ n f _ =>
    if n = 0 then .nan
    else
      let (leftNum, leftDen) := magnitude m e
      let (rightNum, rightDen) := magnitude n f
      ofRatio a ((leftNum * rightDen) % (rightNum * leftDen)) (leftDen * rightDen)

def roundToNat (limit : Nat) : Double → Nat
  | .finite false significand exponent _ =>
    let (num, den) := magnitude significand exponent
    min ((2 * num + den) / (2 * den)) limit
  | .infinite false => limit
  | _ => 0

end DurableWorkflow.Double
