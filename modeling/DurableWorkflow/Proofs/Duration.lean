import DurableWorkflow.Duration
import DurableWorkflow.Proofs.Double.Integer
import DurableWorkflow.Proofs.Text.Blank
import Mathlib

namespace DurableWorkflow

namespace Double

theorem isFinite_ofDecimal {negative : Bool} {digits places : Nat} :
    (ofDecimal negative digits (-places)).isFinite ↔ digits < leastInfinite * 10 ^ places := by
  have zero : (ofRatio negative 0 1).isFinite :=
    (isFinite_ofRatio Nat.one_pos).mpr (Nat.mul_pos leastInfinite_pos Nat.one_pos)
  have positive : 0 < 10 ^ places := Nat.pow_pos (by decide)
  rw [ofDecimal]
  split
  case isTrue none =>
    rw [none]
    exact iff_of_true zero (Nat.mul_pos leastInfinite_pos positive)
  case isFalse =>
    rw [if_neg (by omega)]
    split
    case isTrue low =>
      refine iff_of_true zero ?_
      calc digits < 2 ^ (digits.log2 + 1) := Nat.lt_log2_self
        _ ≤ 10 ^ (digits.log2 + 1) := Nat.pow_le_pow_left (by decide) _
        _ ≤ 10 ^ places := Nat.pow_le_pow_right (by decide) (by omega)
        _ ≤ leastInfinite * 10 ^ places := Nat.le_mul_of_pos_left _ leastInfinite_pos
    case isFalse =>
      rw [show (-(places : Int)).toNat = 0 by omega,
        show (- -(places : Int)).toNat = places by omega]
      exact (isFinite_ofRatio positive).trans (by rw [Nat.pow_eq, Nat.pow_zero, Nat.mul_one])

theorem ofDecimal_exact {n : Nat} (h : n ≤ 2 * leastFull) :
    (ofDecimal false n 0).Denotes false n := by
  have whole := ofNat_exact h
  rw [ofDecimal]
  split
  case isTrue none =>
    rw [none] at whole ⊢
    exact whole
  case isFalse =>
    rw [if_neg (by decide), if_neg (by omega), show Nat.pow 10 (0 : Int).toNat = 1 from rfl,
      Nat.mul_one]
    exact whole

end Double

namespace Duration

structure Amount where
  whole : List Char
  fraction : Option (List Char)

namespace Amount

def digits (amount : Amount) : List Char :=
  amount.whole ++ amount.fraction.getD []

def text (amount : Amount) : List Char :=
  amount.whole ++ amount.fraction.elim [] ('.' :: ·)

structure Proper (amount : Amount) : Prop where
  digits   : ∀ c ∈ amount.digits, c.isDigit
  nonempty : amount.digits ≠ []

def IsFinite (amount : Amount) : Prop :=
  Nat.ofDigitChars 10 amount.digits 0 <
    Double.leastInfinite * 10 ^ (amount.fraction.getD []).length

end Amount

section

variable {amount : Amount} {text whole tail : List Char} {c : Char}

theorem isBlank_of_isAmountChar (h : isAmountChar c) : Text.isBlank c = false := by
  rw [isAmountChar, Bool.or_eq_true, decide_eq_true_eq] at h
  rcases h with digit | rfl
  · simp [Char.isDigit, UInt32.le_iff_toNat_le] at digit
    simp [Text.isBlank]
    omega
  · decide

theorem isAmountChar_of_isBlank (h : Text.isBlank c) : isAmountChar c = false := by
  by_contra amount
  rw [Bool.not_eq_false] at amount
  rw [isBlank_of_isAmountChar amount] at h
  cases h

theorem isAmountChar_of_isAlpha (h : c.isAlpha) : isAmountChar c = false := by
  have noPoint : c ≠ '.' := by
    rintro rfl
    exact absurd h (by decide)
  rw [Text.isAlpha_iff] at h
  simp [isAmountChar, Char.isDigit, noPoint, UInt32.le_iff_toNat_le]
  omega

theorem toLower_of_isAmountChar (h : isAmountChar c) : c.toLower = c := by
  refine Char.toLower_eq_of_not_isUpper fun upper => ?_
  rw [isAmountChar_of_isAlpha (by rw [Char.isAlpha, upper, Bool.true_or])] at h
  cases h

theorem parse?_eq (chars : ∀ c ∈ text, isAmountChar c) (taken : text.takeWhile Char.isDigit = whole)
    (dropped : text.dropWhile Char.isDigit = tail) :
    Double.parse? text =
      let (fraction, rest) :=
        match tail with
        | '.' :: tail => (tail.takeWhile Char.isDigit, tail.dropWhile Char.isDigit)
        | tail => ([], tail)
      if whole.isEmpty && fraction.isEmpty then none
      else
        (Double.parseExponent? rest).map fun exponent =>
          Double.ofDecimal false (Double.digitsValue (whole ++ fraction))
            (exponent - fraction.length) := by
  have unsigned : Double.splitSign text = (false, text) := by
    unfold Double.splitSign
    split
    case h_3 => rfl
    all_goals exact absurd (chars _ List.mem_cons_self) (by decide)
  -- The first letter of a word would be its own lower case.
  have noWord (first : Char) (rest : List Char) (letter : isAmountChar first = false) :
      String.ofList (text.map Char.toLower) ≠ String.ofList (first :: rest) := by
    intro same
    obtain ⟨c, others, rfl, lower, -⟩ := List.map_eq_cons_iff.mp (String.ofList_injective same)
    have amount := chars c List.mem_cons_self
    rw [toLower_of_isAmountChar amount] at lower
    rw [← lower, amount] at letter
    cases letter
  have infinite : ¬(String.ofList (text.map Char.toLower) = "inf" ∨
      String.ofList (text.map Char.toLower) = "infinity") :=
    not_or_intro (noWord 'i' _ (by decide)) (noWord 'i' _ (by decide))
  subst taken dropped
  rw [Double.parse?, unsigned]
  dsimp only
  exact (if_neg (by simpa using infinite)).trans (if_neg (noWord 'n' _ (by decide)))

namespace Amount

def value (amount : Amount) : Double :=
  .ofDecimal false (Nat.ofDigitChars 10 amount.digits 0) (-(amount.fraction.getD []).length)

theorem Proper.isAmountChar (proper : amount.Proper) : ∀ c ∈ amount.text, isAmountChar c := by
  intro c hc
  rw [Duration.isAmountChar, Bool.or_eq_true, decide_eq_true_eq]
  rw [text] at hc
  rcases List.mem_append.mp hc with hc | hc
  · exact .inl (proper.digits c (List.mem_append_left _ hc))
  · cases hf : amount.fraction with
    | none => rw [hf] at hc; cases hc
    | some fraction =>
      rw [hf] at hc
      rcases List.mem_cons.mp hc with rfl | hc
      · exact .inr rfl
      · exact .inl (proper.digits c (List.mem_append_right _ (by rwa [hf])))

theorem Proper.parse?_text (proper : amount.Proper) :
    Double.parse? amount.text = some amount.value := by
  obtain ⟨whole, fraction⟩ := amount
  have chars := proper.isAmountChar
  obtain ⟨digits, nonempty⟩ := proper
  cases fraction with
  | none =>
    simp only [Amount.digits, text, Option.getD_none, Option.elim_none, List.append_nil] at *
    rw [parse?_eq chars (List.takeWhile_eq_self_iff.mpr digits)
      (List.dropWhile_eq_nil_iff.mpr digits)]
    simp [nonempty, Double.parseExponent?, Double.digitsValue, Nat.ofDigitChars, value,
      Amount.digits]
  | some fraction =>
    simp only [Amount.digits, text, Option.getD_some, Option.elim_some] at *
    have before : ∀ c ∈ whole, c.isDigit := fun c hc => digits c (List.mem_append_left _ hc)
    have after : ∀ c ∈ fraction, c.isDigit := fun c hc => digits c (List.mem_append_right _ hc)
    have taken : (whole ++ '.' :: fraction).takeWhile Char.isDigit = whole := by
      rw [List.takeWhile_append_of_pos before, List.takeWhile_cons_of_neg (by decide),
        List.append_nil]
    have dropped : (whole ++ '.' :: fraction).dropWhile Char.isDigit = '.' :: fraction := by
      rw [List.dropWhile_append_of_pos before, List.dropWhile_cons_of_neg (by decide)]
    rw [parse?_eq chars taken dropped]
    simp only [List.takeWhile_eq_self_iff.mpr after, List.dropWhile_eq_nil_iff.mpr after]
    rw [if_neg (by simpa using nonempty)]
    simp [Double.parseExponent?, Double.digitsValue, Nat.ofDigitChars, value, Amount.digits]

theorem exists_text (chars : ∀ c ∈ text, Duration.isAmountChar c) {value : Double}
    (h : Double.parse? text = some value) :
    ∃ amount : Amount, amount.Proper ∧ amount.text = text := by
  have parts := List.takeWhile_append_dropWhile (p := Char.isDigit) (l := text)
  have before : ∀ c ∈ text.takeWhile Char.isDigit, c.isDigit := fun c => List.mem_takeWhile_imp
  have point : ∀ c ∈ (text.dropWhile Char.isDigit).head?, c = '.' := by
    intro c hc
    have noDigit := List.head?_dropWhile_not Char.isDigit text
    rw [Option.mem_def.mp hc] at noDigit
    have inText := List.dropWhile_subset _ (List.mem_of_mem_head? hc)
    simpa [Duration.isAmountChar, noDigit] using chars c inText
  rw [parse?_eq chars rfl rfl] at h
  generalize text.takeWhile Char.isDigit = whole at *
  generalize text.dropWhile Char.isDigit = tail at *
  cases tail with
  | nil =>
    refine ⟨⟨whole, none⟩, ⟨by simpa [digits] using before, ?_⟩, by simpa [Amount.text] using parts⟩
    intro empty
    simp [digits] at empty
    simp [empty] at h
  | cons c fraction =>
    obtain rfl := point c rfl
    have after : fraction.dropWhile Char.isDigit = [] := by
      cases rest : fraction.dropWhile Char.isDigit with
      | nil => rfl
      | cons mark more =>
        -- An exponent would begin with a letter.
        have inText : mark ∈ text := by
          rw [← parts]
          have more : mark ∈ fraction.dropWhile Char.isDigit := by
            rw [rest]
            exact List.mem_cons_self
          exact List.mem_append_right _ (List.mem_cons_of_mem _ (List.dropWhile_subset _ more))
        have : mark ≠ 'e' ∧ mark ≠ 'E' := by
          constructor <;> rintro rfl <;> exact absurd (chars _ inText) (by decide)
        simp [rest, Double.parseExponent?, this] at h
    refine ⟨⟨whole, some fraction⟩, ⟨?_, ?_⟩, by simpa [Amount.text] using parts⟩
    · have := List.dropWhile_eq_nil_iff.mp after
      simpa [digits, or_imp, forall_and] using ⟨before, this⟩
    · intro empty
      simp [digits] at empty
      simp [empty] at h

theorem isFinite_value : amount.value.isFinite ↔ amount.IsFinite :=
  Double.isFinite_ofDecimal

theorem Proper.text_ne_nil (proper : amount.Proper) : amount.text ≠ [] := by
  intro empty
  have value := proper.parse?_text
  rw [empty] at value
  cases value

end Amount

end

section

variable {name : String} {unit : List Char} {millis : Nat} {c : Char}

def units : List (String × Nat) :=
  [("ms", 1), ("millisecond", 1), ("milliseconds", 1),
    ("s", 1000), ("sec", 1000), ("secs", 1000), ("second", 1000), ("seconds", 1000),
    ("m", 60000), ("min", 60000), ("mins", 60000), ("minute", 60000), ("minutes", 60000),
    ("h", 3600000), ("hr", 3600000), ("hrs", 3600000), ("hour", 3600000), ("hours", 3600000),
    ("d", 86400000), ("day", 86400000), ("days", 86400000),
    ("w", 604800000), ("week", 604800000), ("weeks", 604800000)]

theorem unitMillis?_eq_some_iff : unitMillis? name = some millis ↔ (name, millis) ∈ units := by
  constructor
  · intro h
    have listed {names : List String} (all : ∀ name ∈ names, (name, millis) ∈ units)
        (member : name ∈ names) : (name, millis) ∈ units := all name member
    rw [unitMillis?] at h
    split_ifs at h with h₁ h₂ h₃ h₄ h₅ h₆ <;> cases h
    · exact listed (by decide) h₁
    · exact listed (by decide) h₂
    · exact listed (by decide) h₃
    · exact listed (by decide) h₄
    · exact listed (by decide) h₅
    · exact listed (by decide) h₆
  · exact (by decide : ∀ unit ∈ units, unitMillis? unit.1 = some unit.2) (name, millis)

theorem letters_of_mem_units (h : (name, millis) ∈ units) :
    name.toList ≠ [] ∧ ∀ c ∈ name.toList, c.isLower := by
  have letters : ∀ unit ∈ units, unit.1.toList ≠ [] ∧ unit.1.toList.all Char.isLower := by decide
  obtain ⟨nonempty, lower⟩ := letters (name, millis) h
  exact ⟨nonempty, List.all_eq_true.mp lower⟩

theorem letters_of_unit (h : (String.ofList (unit.map Char.toLower), millis) ∈ units) :
    unit ≠ [] ∧ ∀ c ∈ unit, c.isAlpha := by
  obtain ⟨nonempty, lower⟩ := letters_of_mem_units h
  rw [String.toList_ofList] at nonempty lower
  refine ⟨fun empty => nonempty (by rw [empty]; rfl), fun c hc => ?_⟩
  rw [← Char.isLower_toLower_eq_isAlpha]
  exact lower _ (List.mem_map_of_mem hc)

end

structure Phrase where
  lead   : List Char
  amount : Amount
  gap    : List Char
  unit   : List Char
  trail  : List Char

namespace Phrase

def text (phrase : Phrase) : String :=
  .ofList (phrase.lead ++ (phrase.amount.text ++ phrase.gap ++ phrase.unit) ++ phrase.trail)

structure Proper (phrase : Phrase) (millis : Nat) : Prop where
  lead   : Text.Blank phrase.lead
  amount : phrase.amount.Proper
  gap    : Text.Blank phrase.gap
  unit   : (String.ofList (phrase.unit.map Char.toLower), millis) ∈ units
  trail  : Text.Blank phrase.trail

section

variable {phrase : Phrase} {factor millis n : Nat} {text : String}

theorem Proper.isBlank_last (proper : phrase.Proper factor) :
    ∃ c ∈ phrase.unit.getLast?, Text.isBlank c = false := by
  obtain ⟨nonempty, letters⟩ := letters_of_unit proper.unit
  exact ⟨phrase.unit.getLast nonempty, List.getLast?_eq_some_getLast nonempty,
    Text.isBlank_of_isAlpha (letters _ (List.getLast_mem _))⟩

theorem Proper.trim_text (proper : phrase.Proper factor) :
    Text.trim phrase.text.toList = phrase.amount.text ++ (phrase.gap ++ phrase.unit) := by
  rw [text, String.toList_ofList, List.append_assoc (phrase.amount.text)]
  refine Text.trim_append proper.lead proper.trail ?_ ?_
  · obtain ⟨c, rest, first⟩ := List.exists_cons_of_ne_nil proper.amount.text_ne_nil
    refine ⟨c, by rw [first]; rfl, isBlank_of_isAmountChar (proper.amount.isAmountChar c ?_)⟩
    rw [first]
    exact List.mem_cons_self
  · obtain ⟨c, last, solid⟩ := proper.isBlank_last
    refine ⟨c, ?_, solid⟩
    rw [← List.append_assoc, List.getLast?_append, Option.mem_def.mp last]
    rfl

theorem Proper.isAmountChar_head (proper : phrase.Proper factor) :
    ∀ c ∈ (phrase.gap ++ phrase.unit).head?, isAmountChar c = false := by
  intro c first
  rcases List.mem_append.mp (List.mem_of_mem_head? first) with inGap | inUnit
  · exact isAmountChar_of_isBlank (proper.gap c inGap)
  · exact isAmountChar_of_isAlpha ((letters_of_unit proper.unit).2 c inUnit)

theorem Proper.trim_unit (proper : phrase.Proper factor) :
    Text.trim (phrase.gap ++ phrase.unit) = phrase.unit := by
  obtain ⟨nonempty, letters⟩ := letters_of_unit proper.unit
  have : Text.trim (phrase.gap ++ phrase.unit ++ []) = phrase.unit :=
    Text.trim_append proper.gap (by simp [Text.Blank])
      ⟨phrase.unit.head nonempty, List.head?_eq_some_head nonempty,
        Text.isBlank_of_isAlpha (letters _ (List.head_mem _))⟩
      proper.isBlank_last
  rwa [List.append_nil] at this

theorem Proper.parse_text (proper : phrase.Proper factor) :
    parse phrase.text =
      if phrase.amount.value.isFinite then
        .ok ((phrase.amount.value.mul (.ofNat factor)).roundToNat Word.maxUnsigned)
      else .error (.invalidDuration phrase.text) := by
  obtain ⟨taken, dropped⟩ := Text.span_append proper.amount.isAmountChar proper.isAmountChar_head
  have amount : amount? (Text.trim phrase.text.toList) =
      (some phrase.amount.value).filter Double.isFinite := by
    rw [amount?, proper.trim_text, taken, proper.amount.parse?_text]
  have unit : unitMillis? (unitOf (Text.trim phrase.text.toList)) = some factor := by
    rw [unitOf, proper.trim_text, dropped, proper.trim_unit]
    exact unitMillis?_eq_some_iff.mpr proper.unit
  rw [parse, amount, unit, Option.filter_some]
  by_cases finite : phrase.amount.value.isFinite
  case pos => rw [if_pos finite, if_pos finite]
  case neg => rw [if_neg finite, if_neg finite]

theorem exists_of_parse (h : parse text = .ok millis) :
    ∃ (phrase : Phrase) (factor : Nat),
      phrase.Proper factor ∧ phrase.amount.IsFinite ∧ phrase.text = text := by
  obtain ⟨lead, trail, blankLead, blankTrail, around⟩ := Text.exists_trim text.toList
  generalize body : Text.trim text.toList = inner at around
  rw [parse, body] at h
  split at h
  case h_2 => cases h
  case h_1 value factor read unit =>
    rw [amount?, Option.filter_eq_some_iff] at read
    obtain ⟨read, finite⟩ := read
    obtain ⟨amount, proper, spelled⟩ :=
      Amount.exists_text (fun c => List.mem_takeWhile_imp) read
    rw [← spelled, proper.parse?_text, Option.some_inj] at read
    obtain ⟨gap, rest, blankGap, blankRest, apart⟩ :=
      Text.exists_trim (inner.dropWhile Duration.isAmountChar)
    rw [unitOf, unitMillis?_eq_some_iff] at unit
    generalize Text.trim (inner.dropWhile Duration.isAmountChar) = name at unit apart
    refine ⟨⟨lead, amount, gap, name, rest ++ trail⟩, factor,
      ⟨blankLead, proper, blankGap, unit, ?_⟩, ?_, ?_⟩
    · intro c hc
      exact (List.mem_append.mp hc).elim (blankRest c) (blankTrail c)
    · rw [← Amount.isFinite_value, read]
      exact finite
    · have whole : amount.text ++ (gap ++ name ++ rest) = inner := by
        rw [← apart, spelled, List.takeWhile_append_dropWhile]
      rw [← String.ofList_toList (s := text), around, ← whole]
      simp only [Phrase.text, List.append_assoc]

end

end Phrase

section

variable {phrase : Phrase} {name : String} {factor n zeros : Nat} {point : Bool}

def Amount.natural (zeros n : Nat) (point : Bool) : Amount where
  whole := List.replicate zeros '0' ++ Nat.toDigits 10 n
  fraction := if point then some [] else none

theorem Amount.digits_natural :
    (natural zeros n point).digits = List.replicate zeros '0' ++ Nat.toDigits 10 n := by
  cases point <;> simp [natural, digits]

theorem Amount.proper_natural : (natural zeros n point).Proper where
  digits := by
    intro c hc
    rw [digits_natural] at hc
    rcases List.mem_append.mp hc with zero | digit
    · rw [List.eq_of_mem_replicate zero]
      decide
    · exact Nat.isDigit_of_mem_toDigits (by decide) (by decide) digit
  nonempty := by
    rw [digits_natural]
    exact List.append_ne_nil_of_right_ne_nil _ Nat.toDigits_ne_nil

theorem Amount.value_natural : (natural zeros n point).value = .ofDecimal false n 0 := by
  have noFraction : ((natural zeros n point).fraction.getD []).length = 0 := by
    cases point <;> rfl
  have digits : Nat.ofDigitChars 10 (natural zeros n point).digits 0 = n := by
    rw [digits_natural, Nat.ofDigitChars_append, Nat.ofDigitChars_replicate_zero, Nat.mul_zero,
      Nat.ofDigitChars_toDigits (by decide) (by decide)]
  rw [value, noFraction, digits]
  rfl

theorem bounds_of_mem_units (h : (name, factor) ∈ units) :
    0 < factor ∧ factor ≤ 2 * Double.leastFull :=
  (by decide : ∀ unit ∈ units, 0 < unit.2 ∧ unit.2 ≤ 2 * Double.leastFull) (name, factor) h

structure Phrase.Whole (phrase : Phrase) (n factor : Nat) : Prop where
  proper : phrase.Proper factor
  amount : ∃ zeros point, phrase.amount = .natural zeros n point

theorem Phrase.Whole.parse_text (whole : phrase.Whole n factor) (h : n * factor ≤ 2 ^ 53) :
    parse phrase.text = .ok (n * factor) := by
  obtain ⟨proper, zeros, point, written⟩ := whole
  obtain ⟨positive, small⟩ := bounds_of_mem_units proper.unit
  have amount : phrase.amount.value.Denotes false n := by
    rw [written, Amount.value_natural]
    exact Double.ofDecimal_exact ((Nat.le_mul_of_pos_right n positive).trans h)
  have finite : phrase.amount.value.isFinite := by
    obtain ⟨_, _, _, value, -⟩ := amount
    rw [value]
    rfl
  rw [proper.parse_text, if_pos finite, (amount.mul (Double.ofNat_exact small) h).roundToNat,
    Nat.min_eq_left (h.trans (by decide))]

end

-- A text is a duration exactly if it is an amount of digits around at most one point, less than
-- what rounds to infinity, and the name of a unit in any case, with white space around and between
-- them; of other texts the error shows the whole text. A whole amount is exact up to `2 ^ 53`
-- milliseconds, so that equal durations in different units are read equal.
theorem parse_exact (text : String) :
    ((∃ millis, parse text = .ok millis) ↔
      ∃ (phrase : Phrase) (factor : Nat),
        phrase.Proper factor ∧ phrase.amount.IsFinite ∧ phrase.text = text) ∧
    ((∃ millis, parse text = .ok millis) ∨ parse text = .error (.invalidDuration text)) ∧
    ∀ (phrase : Phrase) (n factor : Nat),
      phrase.Whole n factor → n * factor ≤ 2 ^ 53 → phrase.text = text →
        parse text = .ok (n * factor) ∧
        ∀ (other : Phrase) (m unit : Nat),
          other.Whole m unit → m * unit = n * factor → parse other.text = parse text := by
  refine ⟨⟨?accepted, ?grammar⟩, ?refused, ?exact⟩
  case accepted =>
    rintro ⟨millis, h⟩
    exact Phrase.exists_of_parse h
  case grammar =>
    rintro ⟨phrase, factor, proper, finite, rfl⟩
    exact ⟨_, by rw [proper.parse_text, if_pos (Amount.isFinite_value.mpr finite)]⟩
  case refused =>
    rw [parse]
    split
    case h_1 => exact .inl ⟨_, rfl⟩
    case h_2 => exact .inr rfl
  case exact =>
    rintro phrase n factor whole h rfl
    refine ⟨whole.parse_text h, fun other m unit counts same => ?_⟩
    rw [whole.parse_text h, counts.parse_text (same ▸ h), same]

theorem parse_exact_minute :
    parse "060. Secs" = .ok (60 * 1000) ∧ parse "1min\t" = parse "060. Secs" := by
  have none : Text.Blank [] := List.forall_mem_nil _
  have blank (c : Char) (h : Text.isBlank c) : Text.Blank [c] := List.forall_mem_singleton.mpr h
  obtain ⟨seconds, sixty, written⟩ :
      ∃ phrase : Phrase, phrase.Whole 60 1000 ∧ phrase.text = "060. Secs" :=
    ⟨⟨[], .natural 1 60 true, [' '], "Secs".toList, []⟩,
      ⟨⟨none, Amount.proper_natural, blank _ (by decide), by decide, none⟩, 1, true, rfl⟩,
      by decide⟩
  obtain ⟨minute, one, spelled⟩ :
      ∃ phrase : Phrase, phrase.Whole 1 60000 ∧ phrase.text = "1min\t" :=
    ⟨⟨[], .natural 0 1 false, [], "min".toList, ['\t']⟩,
      ⟨⟨none, Amount.proper_natural, none, by decide, blank _ (by decide)⟩, 0, false, rfl⟩,
      by decide⟩
  obtain ⟨whole, same⟩ := (parse_exact "060. Secs").2.2 seconds 60 1000 sixty (by decide) written
  exact ⟨whole, spelled ▸ same minute 1 60000 one (by decide)⟩

end Duration

end DurableWorkflow
