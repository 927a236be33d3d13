import DurableWorkflow.Double.Basic
import Mathlib.Algebra.Order.Ring.Nat
import Mathlib.Tactic.GCongr
import Mathlib.Tactic.Ring

namespace DurableWorkflow.Double

section

variable {num other den n : Nat}

-- Twice the remainder decides, and the parity of the quotient where it is the divisor.
theorem roundQuotient_eq :
    roundQuotient num den =
      if 2 * (num % den) < den ∨ (2 * (num % den) = den ∧ num / den % 2 = 0) then num / den
      else num / den + 1 := by
  rw [roundQuotient]
  rcases lt : compare (2 * (num % den)) den
  case lt =>
    rw [Nat.compare_eq_lt] at lt
    simp [lt]
  case eq =>
    rw [Nat.compare_eq_eq] at lt
    simp [lt]
  case gt =>
    rw [Nat.compare_eq_gt] at lt
    simp [Nat.not_lt.mpr (Nat.le_of_lt lt), Nat.ne_of_gt lt]

theorem roundQuotient_mul (h : 0 < den) : roundQuotient (n * den) den = n := by
  simp [roundQuotient_eq, h]

theorem roundQuotient_le : 2 * (roundQuotient num den * den) ≤ 2 * num + den := by
  have parts := Nat.div_add_mod num den
  rw [roundQuotient_eq]
  split <;> grind

theorem le_roundQuotient (h : 0 < den) : 2 * num ≤ 2 * (roundQuotient num den * den) + den := by
  have parts := Nat.div_add_mod num den
  have := Nat.mod_lt num h
  rw [roundQuotient_eq]
  split <;> grind

theorem roundQuotient_mono (le : num ≤ other) :
    roundQuotient num den ≤ roundQuotient other den := by
  have quotients := Nat.div_le_div_right (c := den) le
  have parts := Nat.div_add_mod num den
  have parts' := Nat.div_add_mod other den
  rw [roundQuotient_eq, roundQuotient_eq]
  rcases Nat.lt_or_eq_of_le quotients with lt | same
  · split <;> split <;> omega
  · rw [same] at parts ⊢
    split <;> split <;> omega

theorem roundQuotient_le_of_lt (positive : 0 < den) (h : num < n * den) :
    roundQuotient num den ≤ n := by
  have : roundQuotient num den ≤ roundQuotient (n * den) den :=
    roundQuotient_mono (Nat.le_of_lt h)
  rwa [roundQuotient_mul positive] at this

theorem le_roundQuotient_of_le (positive : 0 < den) (h : n * den ≤ num) :
    n ≤ roundQuotient num den := by
  have : roundQuotient (n * den) den ≤ roundQuotient num den := roundQuotient_mono h
  rwa [roundQuotient_mul positive] at this

theorem roundQuotient_eq_succ_iff (odd : n % 2 = 1) (h : num < (n + 1) * den) :
    roundQuotient num den = n + 1 ↔ (2 * n + 1) * den ≤ 2 * num := by
  constructor
  case mp =>
    intro rounded
    have : 2 * (roundQuotient num den * den) ≤ 2 * num + den := roundQuotient_le
    rw [rounded] at this
    grind
  case mpr =>
    intro half
    have quotient : num / den = n := Nat.div_eq_of_lt_le (by grind) h
    have parts := Nat.div_add_mod num den
    rw [quotient] at parts
    rw [roundQuotient_eq, quotient, if_neg]
    grind

end

section

variable {num den n i j : Nat} {shift place : Int}

theorem scaledRatio_split (num den : Nat) (h : shift = i - j) :
    ∃ extra, 0 < extra ∧ num * 2 ^ i = (scaledRatio num den shift).1 * extra ∧
      den * 2 ^ j = (scaledRatio num den shift).2 * extra := by
  obtain ⟨extra, hi, hj⟩ : ∃ extra, i = shift.toNat + extra ∧ j = (-shift).toNat + extra :=
    ⟨i - shift.toNat, by omega, by omega⟩
  refine ⟨2 ^ extra, Nat.two_pow_pos extra, ?_, ?_⟩
  · rw [scaledRatio, Nat.shiftLeft_eq, hi, Nat.pow_add, Nat.mul_assoc]
  · rw [scaledRatio, Nat.shiftLeft_eq, Nat.shiftLeft_eq, hj, Nat.pow_add, Nat.mul_assoc]

theorem scaledRatio_lt_iff (h : shift = i - j) :
    (scaledRatio num den shift).1 < n * (scaledRatio num den shift).2 ↔
      num * 2 ^ i < n * (den * 2 ^ j) := by
  obtain ⟨extra, positive, onNum, onDen⟩ := scaledRatio_split num den h
  rw [onNum, onDen, ← Nat.mul_assoc, Nat.mul_lt_mul_right positive]

theorem scaledRatio_eq_iff (h : shift = i - j) :
    (scaledRatio num den shift).1 = n * (scaledRatio num den shift).2 ↔
      num * 2 ^ i = n * (den * 2 ^ j) := by
  obtain ⟨extra, positive, onNum, onDen⟩ := scaledRatio_split num den h
  rw [onNum, onDen, ← Nat.mul_assoc, Nat.mul_left_inj (Nat.pos_iff_ne_zero.mp positive)]

def Fits (num den : Nat) (place : Int) : Prop :=
  (scaledRatio num den (-place)).1 < 2 * leastFull * (scaledRatio num den (-place)).2

def Fills (num den : Nat) (place : Int) : Prop :=
  leastFull * (scaledRatio num den (-place)).2 ≤ (scaledRatio num den (-place)).1

instance : Decidable (Fills num den place) :=
  inferInstanceAs (Decidable (_ ≤ _))

theorem fits_iff (h : -place = i - j) :
    Fits num den place ↔ num * 2 ^ i < 2 * leastFull * (den * 2 ^ j) :=
  scaledRatio_lt_iff h

theorem fills_iff (h : -place = i - j) :
    Fills num den place ↔ leastFull * (den * 2 ^ j) ≤ num * 2 ^ i := by
  rw [Fills, ← Nat.not_lt, scaledRatio_lt_iff h, Nat.not_lt]

theorem Fits.mono {higher : Int} (h : Fits num den place) (le : place ≤ higher) :
    Fits num den higher := by
  rw [fits_iff (i := (-place).toNat) (j := place.toNat) (by omega)] at h
  rw [fits_iff (i := (-place).toNat) (j := place.toNat + (higher - place).toNat) (by omega)]
  refine h.trans_le ?_
  rw [Nat.pow_add, ← Nat.mul_assoc den]
  exact Nat.mul_le_mul_left _ (Nat.le_mul_of_pos_right _ (Nat.two_pow_pos _))

theorem leastFull_eq : leastFull = 2 ^ 52 := by
  decide

-- The logarithms give the exponent up to one, and the comparison settles it.
theorem fits_fills_guess (positive : 0 < den) (nonzero : num ≠ 0) :
    let guess : Int := (num.log2 : Int) - den.log2 - 52
    let place := if Fills num den guess then guess else guess - 1
    Fits num den place ∧ Fills num den place := by
  intro guess place
  have numLow := Nat.log2_self_le nonzero
  have numHigh := Nat.lt_log2_self (n := num)
  have denLow := Nat.log2_self_le (Nat.pos_iff_ne_zero.mp positive)
  have denHigh := Nat.lt_log2_self (n := den)
  have atGuess : -guess = (den.log2 + 52 : Nat) - (num.log2 : Nat) := by omega
  have below : -(guess - 1) = (den.log2 + 53 : Nat) - (num.log2 : Nat) := by omega
  by_cases filled : Fills num den guess
  case pos =>
    simp only [place, if_pos filled]
    refine ⟨(fits_iff atGuess).mpr ?_, filled⟩
    calc num * 2 ^ (den.log2 + 52) < 2 ^ (num.log2 + 1) * 2 ^ (den.log2 + 52) :=
          Nat.mul_lt_mul_of_pos_right numHigh (Nat.two_pow_pos _)
      _ = 2 * leastFull * (2 ^ den.log2 * 2 ^ num.log2) := by rw [leastFull_eq]; ring
      _ ≤ 2 * leastFull * (den * 2 ^ num.log2) := by gcongr
  case neg =>
    simp only [place, if_neg filled]
    rw [fills_iff atGuess, Nat.not_le] at filled
    refine ⟨(fits_iff below).mpr ?_, (fills_iff below).mpr ?_⟩
    · calc num * 2 ^ (den.log2 + 53) = 2 * (num * 2 ^ (den.log2 + 52)) := by ring
        _ < 2 * (leastFull * (den * 2 ^ num.log2)) := Nat.mul_lt_mul_of_pos_left filled Nat.two_pos
        _ = 2 * leastFull * (den * 2 ^ num.log2) := by ring
    · calc leastFull * (den * 2 ^ num.log2) ≤ leastFull * (2 ^ (den.log2 + 1) * num) := by gcongr
        _ = num * 2 ^ (den.log2 + 53) := by rw [leastFull_eq]; ring

theorem placeOf_eq (nonzero : num ≠ 0) :
    placeOf num den =
      let guess : Int := (num.log2 : Int) - den.log2 - 52
      max (if Fills num den guess then guess else guess - 1) (-1074) := by
  simp only [placeOf, if_neg nonzero, Fills, ← Nat.not_lt, ite_not]

theorem fits_placeOf (positive : 0 < den) : Fits num den (placeOf num den) := by
  by_cases zero : num = 0
  case pos =>
    subst zero
    rw [fits_iff (i := 1074) (j := 0) (by simp [placeOf])]
    rw [Nat.zero_mul]
    exact Nat.mul_pos (by decide) (Nat.mul_pos positive (Nat.two_pow_pos 0))
  case neg =>
    rw [placeOf_eq zero]
    exact (fits_fills_guess positive zero).1.mono (Int.le_max_left _ _)

theorem fills_placeOf (positive : 0 < den) (h : -1074 < placeOf num den) :
    Fills num den (placeOf num den) := by
  have nonzero : num ≠ 0 := by
    rintro rfl
    simp [placeOf] at h
  rw [placeOf_eq nonzero] at h ⊢
  dsimp only at h ⊢
  rw [max_eq_left (by omega)]
  exact (fits_fills_guess positive nonzero).2

theorem le_placeOf : -1074 ≤ placeOf num den := by
  rw [placeOf]
  dsimp only
  split
  · exact Int.le_refl _
  · exact Int.le_max_right _ _

end

section

variable {negative : Bool} {num den : Nat}

def rounded (num den : Nat) : Nat :=
  roundQuotient (scaledRatio num den (-placeOf num den)).1
    (scaledRatio num den (-placeOf num den)).2

def result (num den : Nat) : Nat × Int :=
  if rounded num den = 2 * leastFull then (leastFull, placeOf num den + 1)
  else (rounded num den, placeOf num den)

-- A quotient is scaled so that 53 binary places stand before the point, and what is left after the
-- point is rounded away.
theorem ofRatio_eq :
    ofRatio negative num den =
      if canonical : Canonical (result num den).1 (result num den).2 then
        .finite negative (result num den).1 (result num den).2 canonical
      else .infinite negative :=
  rfl

theorem scaledRatio_pos (positive : 0 < den) (num : Nat) (shift : Int) :
    0 < (scaledRatio num den shift).2 := by
  simp only [scaledRatio, Nat.shiftLeft_eq]
  exact Nat.mul_pos positive (Nat.two_pow_pos _)

theorem rounded_le (positive : 0 < den) : rounded num den ≤ 2 * leastFull :=
  roundQuotient_le_of_lt (scaledRatio_pos positive _ _) (fits_placeOf positive)

theorem le_rounded (positive : 0 < den) (h : -1074 < placeOf num den) :
    leastFull ≤ rounded num den :=
  le_roundQuotient_of_le (scaledRatio_pos positive _ _) (fills_placeOf positive h)

theorem canonical_result_iff (positive : 0 < den) :
    Canonical (result num den).1 (result num den).2 ↔ (result num den).2 ≤ 971 := by
  have low : -1074 ≤ placeOf num den := le_placeOf
  have bound : rounded num den ≤ 2 * leastFull := rounded_le positive
  have full : -1074 < placeOf num den → leastFull ≤ rounded num den := le_rounded positive
  rw [Canonical, result]
  split
  case isTrue  => simp [leastFull]; omega
  case isFalse => dsimp only; omega

theorem isFinite_ofRatio_iff (positive : 0 < den) :
    (ofRatio negative num den).isFinite ↔ (result num den).2 ≤ 971 := by
  rw [ofRatio_eq, ← canonical_result_iff positive]
  split <;> simp_all [isFinite]

-- The least number that is nearer to `2 ^ 1024` than to the greatest double, or as near.
def leastInfinite : Nat :=
  (4 * leastFull - 1) * 2 ^ 970

theorem leastInfinite_pos : 0 < leastInfinite :=
  Nat.mul_pos (n := 4 * leastFull - 1) (by decide) (pow_pos Nat.two_pos 970)

theorem isFinite_ofRatio (positive : 0 < den) :
    (ofRatio negative num den).isFinite ↔ num < leastInfinite * den := by
  have fits : Fits num den (placeOf num den) := fits_placeOf positive
  have fills : -1074 < placeOf num den → Fills num den (placeOf num den) := fills_placeOf positive
  rw [isFinite_ofRatio_iff positive, leastInfinite]
  -- The exponent stays a variable, since nothing should evaluate the power.
  obtain ⟨top, known⟩ : ∃ top : Nat, top = 970 := ⟨970, rfl⟩
  rw [← known]
  rcases Int.lt_trichotomy (placeOf num den) 971 with low | edge | high
  · have small := (fits_iff (i := 0) (j := top) (by omega)).mp
      (fits.mono (show _ ≤ (top : Int) by omega))
    refine iff_of_true ?_ ?_
    · rw [result]
      split <;> dsimp only <;> omega
    · calc num < 2 * leastFull * (den * 2 ^ top) := by rwa [Nat.pow_zero, Nat.mul_one] at small
        _ = 2 * leastFull * 2 ^ top * den := by ring
        _ ≤ (4 * leastFull - 1) * 2 ^ top * den := by gcongr; decide
  · -- The last place is rounded up from the middle between the greatest double and the next power.
    have carries :
        rounded num den = 2 * leastFull ↔ (4 * leastFull - 1) * 2 ^ top * den ≤ num := by
      rw [fits_iff (i := 0) (j := top + 1) (by omega), Nat.pow_zero, Nat.mul_one] at fits
      have scaled : scaledRatio num den (-placeOf num den) = (num, den * 2 ^ (top + 1)) := by
        rw [scaledRatio, Nat.shiftLeft_eq, Nat.shiftLeft_eq,
          show (-placeOf num den).toNat = 0 by omega,
          show (- -placeOf num den).toNat = top + 1 by omega, Nat.pow_zero, Nat.mul_one]
      have half := roundQuotient_eq_succ_iff (n := 2 * leastFull - 1) rfl fits
      rw [rounded, scaled]
      refine half.trans ?_
      rw [show 2 * (2 * leastFull - 1) + 1 = 4 * leastFull - 1 from rfl, Nat.pow_succ,
        show (4 * leastFull - 1) * (den * (2 ^ top * 2)) =
          2 * ((4 * leastFull - 1) * 2 ^ top * den) by ring]
      omega
    rw [← Nat.not_le, ← carries, result]
    by_cases carry : rounded num den = 2 * leastFull <;> simp [carry, edge]
  · have large := (fills_iff (i := 0) (j := (placeOf num den).toNat) (by omega)).mp
      (fills (by omega))
    refine iff_of_false ?_ (Nat.not_lt.mpr ?_)
    · rw [result]
      split <;> dsimp only <;> omega
    · calc (4 * leastFull - 1) * 2 ^ top * den ≤ 4 * leastFull * 2 ^ top * den := by
            gcongr; decide
        _ = leastFull * (den * 2 ^ (top + 2)) := by ring
        _ ≤ leastFull * (den * 2 ^ (placeOf num den).toNat) := by
            gcongr
            · exact Nat.le_succ 1
            · omega
        _ ≤ num := by rwa [Nat.pow_zero, Nat.mul_one] at large

end

end DurableWorkflow.Double
