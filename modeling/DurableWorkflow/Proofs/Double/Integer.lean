import DurableWorkflow.Double.Arithmetic
import DurableWorkflow.Proofs.Double.Rounding
import Mathlib.Algebra.Order.Ring.Int
import Mathlib.Order.Compare

namespace DurableWorkflow.Double

-- The double is the integer `± n`.
def Denotes (number : Double) (negative : Bool) (n : Nat) : Prop :=
  ∃ significand exponent canonical, number = .finite negative significand exponent canonical ∧
    (magnitude significand exponent).1 = n * (magnitude significand exponent).2

section

variable {a b : Double} {s t negative : Bool} {m n num den i j : Nat}

theorem ofRatio_denotes (positive : 0 < den) (low : placeOf num den ≤ 970)
    (split : placeOf num den = i - j) (exact : rounded num den * 2 ^ i = n * 2 ^ j) :
    (ofRatio negative num den).Denotes negative n := by
  have canonical : Canonical (result num den).1 (result num den).2 := by
    rw [canonical_result_iff positive, result]
    split <;> dsimp only <;> omega
  refine ⟨_, _, canonical, by rw [ofRatio_eq, dif_pos canonical], ?_⟩
  rw [magnitude, result]
  split
  case isTrue carries =>
    rw [scaledRatio_eq_iff (i := i + 1) (j := j) (by dsimp only; omega), Nat.one_mul, ← exact,
      carries]
    ring
  case isFalse =>
    rw [scaledRatio_eq_iff (i := i) (j := j) split, Nat.one_mul, exact]

theorem ofRatio_exact (positive : 0 < den) (h : n ≤ 2 * leastFull) :
    (ofRatio negative (n * den) den).Denotes negative n := by
  have fills : -1074 < placeOf (n * den) den → Fills (n * den) den (placeOf (n * den) den) :=
    fills_placeOf positive
  by_cases whole : placeOf (n * den) den ≤ 0
  case pos =>
    refine ofRatio_denotes (i := 0) (j := (-placeOf (n * den) den).toNat) positive
      (by omega) (by omega) ?_
    rw [rounded, scaledRatio, Nat.shiftLeft_eq, Nat.shiftLeft_eq,
      show (- -placeOf (n * den) den).toNat = 0 by omega, Nat.pow_zero, Nat.mul_one, Nat.mul_one,
      Nat.mul_right_comm, roundQuotient_mul positive]
  case neg =>
    -- The only integer with a place more is the least one with 54 places.
    obtain ⟨extra, place⟩ : ∃ extra : Nat, placeOf (n * den) den = extra + 1 :=
      ⟨(placeOf (n * den) den - 1).toNat, by omega⟩
    have large := (fills_iff (i := 0) (j := extra + 1) (by omega)).mp (fills (by omega))
    have large : leastFull * 2 ^ (extra + 1) ≤ n := by
      refine Nat.le_of_mul_le_mul_right ?_ positive
      calc leastFull * 2 ^ (extra + 1) * den = leastFull * (den * 2 ^ (extra + 1)) := by ring
        _ ≤ n * den := by rwa [Nat.pow_zero, Nat.mul_one] at large
    obtain rfl : extra = 0 := by
      by_contra more
      have : 2 ^ 2 ≤ 2 ^ (extra + 1) := Nat.pow_le_pow_right Nat.two_pos (by omega)
      simp only [leastFull] at *
      omega
    obtain rfl : n = 2 * leastFull := by omega
    refine ofRatio_denotes (i := 1) (j := 0) positive (by omega) (by omega) ?_
    have scaled : scaledRatio (2 * leastFull * den) den (-placeOf (2 * leastFull * den) den) =
        (leastFull * (den * 2), den * 2) := by
      rw [place]
      simp [scaledRatio, Nat.shiftLeft_eq]
      ring
    rw [rounded, scaled, roundQuotient_mul (by omega)]
    ring

theorem ofNat_exact (h : n ≤ 2 * leastFull) : (ofNat n).Denotes false n := by
  have : (ofRatio false (n * 1) 1).Denotes false n := ofRatio_exact Nat.one_pos h
  rwa [Nat.mul_one] at this

theorem magnitude_pos (significand : Nat) (exponent : Int) :
    0 < (magnitude significand exponent).2 :=
  scaledRatio_pos Nat.one_pos _ _

theorem Denotes.mul (ha : a.Denotes s m) (hb : b.Denotes t n) (h : m * n ≤ 2 * leastFull) :
    (a.mul b).Denotes (s != t) (m * n) := by
  obtain ⟨p, e, _, rfl, onA⟩ := ha
  obtain ⟨q, f, _, rfl, onB⟩ := hb
  rw [Double.mul]
  dsimp only
  rw [onA, onB, Nat.mul_mul_mul_comm]
  exact ofRatio_exact (Nat.mul_pos (magnitude_pos p e) (magnitude_pos q f)) h

theorem Denotes.roundToNat (h : a.Denotes false n) (limit : Nat) :
    a.roundToNat limit = min n limit := by
  obtain ⟨p, e, _, rfl, onA⟩ := h
  have := magnitude_pos p e
  rw [Double.roundToNat]
  dsimp only
  rw [onA, show 2 * (n * (magnitude p e).2) + (magnitude p e).2 =
    (magnitude p e).2 + 2 * (magnitude p e).2 * n by ring, Nat.add_mul_div_left _ _ (by omega),
    Nat.div_eq_of_lt (by omega), Nat.zero_add]

theorem signed_mul : signed s (m * n) = signed s m * n := by
  cases s <;> simp [signed]

theorem Denotes.compare? (ha : a.Denotes s m) (hb : b.Denotes t n) :
    a.compare? b = some (compare (signed s m) (signed t n)) := by
  obtain ⟨p, e, _, rfl, onA⟩ := ha
  obtain ⟨q, f, _, rfl, onB⟩ := hb
  have positive : (0 : Int) < ((magnitude p e).2 * (magnitude q f).2 : Nat) :=
    Int.natCast_pos.mpr (Nat.mul_pos (magnitude_pos p e) (magnitude_pos q f))
  rw [Double.compare?]
  dsimp only
  rw [onA, onB, Nat.mul_assoc, Nat.mul_assoc, Nat.mul_comm (magnitude q f).2, signed_mul,
    signed_mul, ← cmp_eq_compare, ← cmp_eq_compare]
  exact congrArg some ((strictMono_mul_right_of_pos positive).cmp_map_eq _ _)

end

section

variable {negative : Bool} {m n : Nat} {i j : Int}

def lastPlace (n : Nat) : Nat :=
  2 ^ (n.log2 - 52)

def nearestNat (n : Nat) : Nat :=
  roundQuotient n (lastPlace n) * lastPlace n

-- The integer nearest to an integer, of those with 53 binary places and nothing but zeros after
-- them. Of two that are equally near it is the one with the even significand.
def nearest (i : Int) : Int :=
  signed (decide (i < 0)) (nearestNat i.natAbs)

theorem lastPlace_pos (n : Nat) : 0 < lastPlace n :=
  Nat.two_pow_pos _

theorem nearestNat_of_dvd (h : lastPlace n ∣ n) : nearestNat n = n := by
  obtain ⟨quotient, hq⟩ := h
  have : n = quotient * lastPlace n := by rw [Nat.mul_comm, ← hq]
  rw [nearestNat]
  nth_rewrite 1 [this]
  rw [roundQuotient_mul (lastPlace_pos n), ← this]

theorem ofRatio_nearest (h : n.log2 ≤ 1022) :
    (ofRatio negative n 1).Denotes negative (nearestNat n) := by
  by_cases short : n.log2 < 52
  case pos =>
    have single : lastPlace n = 1 := by
      rw [lastPlace, Nat.sub_eq_zero_of_le (by omega), Nat.pow_zero]
    rw [nearestNat_of_dvd (single ▸ Nat.one_dvd n)]
    have small : n ≤ 2 * leastFull :=
      calc n ≤ 2 ^ (n.log2 + 1) := Nat.le_of_lt Nat.lt_log2_self
        _ ≤ 2 ^ 53 := Nat.pow_le_pow_right Nat.two_pos (by omega)
    have : (ofRatio negative (n * 1) 1).Denotes negative n := ofRatio_exact Nat.one_pos small
    rwa [Nat.mul_one] at this
  case neg =>
    have nonzero : n ≠ 0 := by
      rintro rfl
      exact short (by decide)
    have filled : Fills n 1 (n.log2 - 52 : Nat) := by
      rw [fills_iff (i := 0) (j := n.log2 - 52) (by omega), leastFull_eq, Nat.one_mul,
        ← Nat.pow_add, Nat.pow_zero, Nat.mul_one, Nat.add_sub_cancel' (by omega)]
      exact Nat.log2_self_le nonzero
    have place : placeOf n 1 = (n.log2 - 52 : Nat) := by
      have guess : (n.log2 : Int) - (Nat.log2 1 : Nat) - 52 = (n.log2 - 52 : Nat) := by
        rw [show Nat.log2 1 = 0 from rfl]
        omega
      rw [placeOf_eq nonzero]
      dsimp only
      rw [guess, if_pos filled, max_eq_left (by omega)]
    refine ofRatio_denotes (i := n.log2 - 52) (j := 0) Nat.one_pos (by omega) (by omega) ?_
    rw [rounded, place, nearestNat, lastPlace]
    simp [scaledRatio, Nat.shiftLeft_eq]

theorem nearestNat_le : 2 * nearestNat n ≤ 2 * n + lastPlace n :=
  roundQuotient_le

theorem le_nearestNat : 2 * n ≤ 2 * nearestNat n + lastPlace n :=
  le_roundQuotient (lastPlace_pos n)

theorem nearestNat_le_pow : nearestNat n ≤ 2 ^ (n.log2 + 1) := by
  have whole : 2 ^ (n.log2 + 1) = 2 ^ (n.log2 + 1 - (n.log2 - 52)) * lastPlace n := by
    rw [lastPlace, ← Nat.pow_add, Nat.sub_add_cancel (by omega)]
  rw [whole]
  refine Nat.mul_le_mul_right _ (roundQuotient_le_of_lt (lastPlace_pos n) ?_)
  rw [← whole]
  exact Nat.lt_log2_self

theorem pow_le_nearestNat (h : n ≠ 0) : 2 ^ n.log2 ≤ nearestNat n := by
  have whole : 2 ^ n.log2 = 2 ^ (n.log2 - (n.log2 - 52)) * lastPlace n := by
    rw [lastPlace, ← Nat.pow_add, Nat.sub_add_cancel (by omega)]
  rw [whole]
  refine Nat.mul_le_mul_right _ (le_roundQuotient_of_le (lastPlace_pos n) ?_)
  rw [← whole]
  exact Nat.log2_self_le h

theorem nearestNat_mono (h : m ≤ n) : nearestNat m ≤ nearestNat n := by
  by_cases zero : m = 0
  case pos =>
    rw [zero, nearestNat_of_dvd (Nat.dvd_zero _)]
    exact Nat.zero_le _
  case neg =>
    have nonzero : n ≠ 0 := by omega
    have logs : m.log2 ≤ n.log2 :=
      (Nat.le_log2 nonzero).mpr (Nat.le_trans (Nat.log2_self_le zero) h)
    rcases Nat.lt_or_eq_of_le logs with shorter | same
    · calc nearestNat m ≤ 2 ^ (m.log2 + 1) := nearestNat_le_pow
        _ ≤ 2 ^ n.log2 := Nat.pow_le_pow_right Nat.two_pos shorter
        _ ≤ nearestNat n := pow_le_nearestNat nonzero
    · have : lastPlace m = lastPlace n := by rw [lastPlace, same, lastPlace]
      rw [nearestNat, nearestNat, this]
      exact Nat.mul_le_mul_right _ (roundQuotient_mono h)

theorem nearest_of_neg (h : i < 0) : nearest i = -(nearestNat i.natAbs : Int) := by
  simp [nearest, signed, h]

theorem nearest_of_nonneg (h : 0 ≤ i) : nearest i = nearestNat i.natAbs := by
  simp [nearest, signed, Int.not_lt.mpr h]

theorem nearest_mono (h : i ≤ j) : nearest i ≤ nearest j := by
  rcases Int.lt_or_le i 0 with negI | posI <;> rcases Int.lt_or_le j 0 with negJ | posJ
  · rw [nearest_of_neg negI, nearest_of_neg negJ]
    exact Int.neg_le_neg (Int.ofNat_le.mpr (nearestNat_mono (by omega)))
  · rw [nearest_of_neg negI, nearest_of_nonneg posJ]
    omega
  · omega
  · rw [nearest_of_nonneg posI, nearest_of_nonneg posJ]
    exact Int.ofNat_le.mpr (nearestNat_mono (by omega))

theorem nearest_of_dvd (h : lastPlace i.natAbs ∣ i.natAbs) : nearest i = i := by
  rcases Int.lt_or_le i 0 with neg | pos
  · rw [nearest_of_neg neg, nearestNat_of_dvd h]
    omega
  · rw [nearest_of_nonneg pos, nearestNat_of_dvd h]
    omega

-- Rounding moves an integer by half of its last place at most.
theorem natAbs_nearest_sub_le : 2 * (nearest i - i).natAbs ≤ lastPlace i.natAbs := by
  have low := nearestNat_le (n := i.natAbs)
  have high := le_nearestNat (n := i.natAbs)
  rcases Int.lt_or_le i 0 with neg | pos
  · rw [nearest_of_neg neg]
    omega
  · rw [nearest_of_nonneg pos]
    omega

theorem ofInt_nearest (h : i.natAbs.log2 ≤ 1022) :
    (ofInt i).Denotes (decide (i < 0)) (nearestNat i.natAbs) :=
  ofRatio_nearest h

theorem compare?_ofInt (hi : i.natAbs.log2 ≤ 1022) (hj : j.natAbs.log2 ≤ 1022) :
    (ofInt i).compare? (ofInt j) = some (compare (nearest i) (nearest j)) :=
  (ofInt_nearest hi).compare? (ofInt_nearest hj)

end

end DurableWorkflow.Double
