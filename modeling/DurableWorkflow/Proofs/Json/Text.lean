import DurableWorkflow.Json.Printer
import DurableWorkflow.Json.Raw
import DurableWorkflow.Proofs.Text.Blank
import Mathlib

namespace DurableWorkflow

namespace Json

namespace Raw

variable {c : Char} {code n : Nat} {text rest digits left : List Char} {pieces : List Piece}

inductive Spells : Piece → Char → Prop
  | char {c : Char} : Spells (.char c) c
  | unit {c : Char} (control : c.toNat < 0x20) : Spells (.unit c.toNat) c

theorem joinPieces_unit (h : code < 0xD800) :
    joinPieces (.unit code :: pieces) = (joinPieces pieces).map (Char.ofNat code :: ·) := by
  have high : isHighSurrogate code = false := by simp [isHighSurrogate]; omega
  have low : isLowSurrogate code = false := by simp [isLowSurrogate]; omega
  rcases pieces with _ | ⟨_ | _, _⟩ <;> simp [joinPieces, high, low]

theorem joinPieces_of_spells (h : List.Forall₂ Spells pieces text) :
    joinPieces pieces = some text := by
  induction h with
  | nil => rfl
  | cons first _ ih =>
    cases first with
    | char => rw [joinPieces, ih]; rfl
    | unit control => rw [joinPieces_unit (by omega), ih, Char.ofNat_toNat]; rfl

theorem hexDigit?_digitChar (h : n < 16) : hexDigit? (Nat.digitChar n) = some n := by
  revert n
  decide

theorem hexValue?_hexByte (h : n < 256) :
    hexValue? ['0', '0', Nat.digitChar (n / 16), Nat.digitChar (n % 16)] = some n := by
  have zero : hexDigit? '0' = some 0 := rfl
  simp [hexValue?, zero, hexDigit?_digitChar (show n / 16 < 16 by omega),
    hexDigit?_digitChar (show n % 16 < 16 by omega)]
  omega

theorem lexString_escapeChar (c : Char) (rest : List Char) :
    ∃ piece, Spells piece c ∧
      lexString (escapeChar c ++ rest) =
        (lexString rest).map fun (pieces, left) => (piece :: pieces, left) := by
  unfold escapeChar
  split
  case h_8 quote backslash _ _ _ _ _ =>
    split
    case isTrue control =>
      refine ⟨_, .unit control, ?_⟩
      change lexString ('\\' :: 'u' :: '0' :: '0' :: Nat.digitChar (c.toNat / 16) ::
        Nat.digitChar (c.toNat % 16) :: rest) = _
      rw [lexString, hexValue?_hexByte (by omega)]
      cases lexString rest <;> rfl
    case isFalse printed =>
      refine ⟨_, .char, ?_⟩
      rw [List.singleton_append, lexString, if_neg printed]
      · cases lexString rest <;> rfl
      · exact quote
      · rintro _ _ _ _ _ rfl
        exact fun _ => backslash rfl
      · rintro _ _ rfl
        exact fun _ => backslash rfl
  all_goals
    refine ⟨_, .char, ?_⟩
    simp only [List.cons_append, List.nil_append]
    rw [lexString]
    · cases lexString rest <;> rfl
    · simp

theorem lexString_flatMap (text rest : List Char) :
    ∃ pieces, List.Forall₂ Spells pieces text ∧
      lexString (text.flatMap escapeChar ++ '"' :: rest) = some (pieces, rest) := by
  induction text with
  | nil => exact ⟨[], .nil, rfl⟩
  | cons c text ih =>
    obtain ⟨pieces, spelled, read⟩ := ih
    obtain ⟨piece, spells, first⟩ := lexString_escapeChar c (text.flatMap escapeChar ++ '"' :: rest)
    refine ⟨piece :: pieces, .cons spells spelled, ?_⟩
    rw [List.flatMap_cons, List.append_assoc, first, read]
    rfl

theorem stringLiteral_renderString (text : String) (rest : List Char) :
    stringLiteral ((renderString text).toList ++ rest) = some (some text, rest) := by
  obtain ⟨pieces, spelled, read⟩ := lexString_flatMap text.toList rest
  simp [renderString, stringLiteral, read, joinPieces_of_spells spelled]

def Stops (rest : List Char) : Prop :=
  ∀ c ∈ rest.head?, c = ',' ∨ c = ']' ∨ c = '}'

theorem stops_nil : Stops [] := by
  rintro _ ⟨⟩

theorem Stops.isDigit (h : Stops (c :: rest)) : c.isDigit = false := by
  rcases h c rfl with rfl | rfl | rfl <;> rfl

theorem span_digits (stops : Stops rest) (text : List Char) :
    (text ++ rest).takeWhile Char.isDigit = text.takeWhile Char.isDigit ∧
      (text ++ rest).dropWhile Char.isDigit = text.dropWhile Char.isDigit ++ rest := by
  induction text with
  | nil =>
    cases rest with
    | nil => exact ⟨rfl, rfl⟩
    | cons c rest => simp [stops.isDigit]
  | cons c text ih =>
    cases digit : c.isDigit <;> simp [digit, ih]

theorem lexWhole_append (stops : Stops rest) (h : lexWhole text = some (digits, left)) :
    lexWhole (text ++ rest) = some (digits, left ++ rest) := by
  cases text with
  | nil => cases h
  | cons first text =>
    by_cases zero : first = '0'
    case pos =>
      subst zero
      cases h
      rfl
    case neg =>
      obtain ⟨taken, dropped⟩ := span_digits stops (first :: text)
      rw [lexWhole] at h
      · rw [List.cons_append, lexWhole, ← List.cons_append]
        · rw [taken, dropped]
          split at h <;> cases h
          rw [if_neg ‹_›]
        · simpa using zero
      · simpa using zero

theorem lexFraction_append {fraction : Option (List Char)} (stops : Stops rest)
    (h : lexFraction text = some (fraction, left)) :
    lexFraction (text ++ rest) = some (fraction, left ++ rest) := by
  cases text with
  | nil =>
    cases h
    rw [List.nil_append, lexFraction]
    rintro rest rfl
    exact absurd (stops '.' rfl) (by decide)
  | cons first text =>
    by_cases point : first = '.'
    case pos =>
      subst point
      obtain ⟨taken, dropped⟩ := span_digits stops text
      rw [List.cons_append, lexFraction, taken, dropped]
      rw [lexFraction] at h
      split at h <;> cases h
      rw [if_neg ‹_›]
    case neg =>
      rw [lexFraction] at h
      · cases h
        rw [List.cons_append, lexFraction]
        simpa using point
      · simpa using point

theorem splitSign_append (stops : Stops rest) (text : List Char) :
    Double.splitSign (text ++ rest) =
      ((Double.splitSign text).1, (Double.splitSign text).2 ++ rest) := by
  cases text with
  | nil =>
    rw [List.nil_append, Double.splitSign.eq_def]
    split
    case h_1 => exact absurd (stops '-' rfl) (by decide)
    case h_2 => exact absurd (stops '+' rfl) (by decide)
    case h_3 => rfl
  | cons first text =>
    rw [List.cons_append, Double.splitSign.eq_def]
    split <;> simp_all [Double.splitSign]

theorem lexExponent_append {exponent : Option Int} (stops : Stops rest)
    (h : lexExponent text = some (exponent, left)) :
    lexExponent (text ++ rest) = some (exponent, left ++ rest) := by
  cases text with
  | nil =>
    cases h
    cases rest with
    | nil => rfl
    | cons c rest =>
      have unmarked : ¬(c = 'e' || c = 'E') = true := by
        rcases stops c rfl with rfl | rfl | rfl <;> decide
      rw [List.nil_append, lexExponent, if_neg unmarked]
  | cons mark text =>
    rw [lexExponent] at h
    rw [List.cons_append, lexExponent, splitSign_append stops]
    split at h
    case isTrue marked =>
      obtain ⟨taken, dropped⟩ := span_digits stops (Double.splitSign text).2
      rw [if_pos marked]
      dsimp only at h ⊢
      rw [taken, dropped]
      split at h <;> cases h
      rw [if_neg ‹_›]
    case isFalse unmarked =>
      cases h
      rw [if_neg unmarked]
      rfl

theorem lexUnsigned_append {number : Raw} {negative : Bool} (stops : Stops rest)
    (h : lexUnsigned negative text = some (number, left)) :
    lexUnsigned negative (text ++ rest) = some (number, left ++ rest) := by
  obtain ⟨⟨whole, text⟩, wholes, h⟩ := Option.bind_eq_some_iff.mp h
  obtain ⟨⟨fraction, text⟩, fractions, h⟩ := Option.bind_eq_some_iff.mp h
  obtain ⟨⟨exponent, text⟩, exponents, h⟩ := Option.bind_eq_some_iff.mp h
  cases h
  simp [lexUnsigned, lexWhole_append stops wholes, lexFraction_append stops fractions,
    lexExponent_append stops exponents]

theorem lexNumber_append {number : Raw} (stops : Stops rest)
    (h : lexNumber text = some (number, left)) :
    lexNumber (text ++ rest) = some (number, left ++ rest) := by
  cases text with
  | nil => cases h
  | cons first text =>
    by_cases minus : first = '-'
    case pos =>
      subst minus
      exact lexUnsigned_append stops h
    case neg =>
      rw [lexNumber] at h
      · rw [List.cons_append, lexNumber]
        · exact lexUnsigned_append stops h
        · simpa using minus
      · simpa using minus

theorem head?_toDigits (h : 0 < n) : (Nat.toDigits 10 n).head? ≠ some '0' := by
  induction n using Nat.strongRecOn with
  | ind n ih =>
    rw [Nat.toDigits_eq_if (by decide)]
    split
    case isTrue single =>
      have letter : ∀ n < 10, 0 < n → Nat.digitChar n ≠ '0' := by decide
      simpa using letter n single h
    case isFalse =>
      rw [List.head?_append_of_ne_nil _ Nat.toDigits_ne_nil]
      exact ih (n / 10) (by omega) (by omega)

theorem lexWhole_toDigits (n : Nat) :
    lexWhole (Nat.toDigits 10 n) = some (Nat.toDigits 10 n, []) := by
  rcases Nat.eq_zero_or_pos n with rfl | positive
  · rfl
  have digits : ∀ c ∈ Nat.toDigits 10 n, c.isDigit :=
    fun _ => Nat.isDigit_of_mem_toDigits (by decide) (by decide)
  obtain ⟨taken, dropped⟩ := Text.span_append digits
    (show ∀ c ∈ ([] : List Char).head?, c.isDigit = false by rintro _ ⟨⟩)
  rw [List.append_nil] at taken dropped
  rw [lexWhole, taken, dropped]
  · exact if_neg (by simp)
  · intro rest same
    exact head?_toDigits positive (by rw [same]; rfl)

theorem le_ofDigitChars : n ≤ Nat.ofDigitChars 10 digits n := by
  induction digits generalizing n with
  | nil => exact Nat.le_refl n
  | cons digit digits ih =>
    rw [Nat.ofDigitChars_cons]
    exact Nat.le_trans (by omega) ih

theorem absorb_eq (h : Nat.ofDigitChars 10 digits n ≤ Word.maxUnsigned) :
    absorb n digits = (Nat.ofDigitChars 10 digits n, []) := by
  induction digits generalizing n with
  | nil => rfl
  | cons digit digits ih =>
    rw [Nat.ofDigitChars_cons] at h ⊢
    rw [absorb, if_pos (Nat.le_trans le_ofDigitChars h)]
    exact ih h

theorem numberOf_toDigits {negative : Bool} (bounded : n ≤ Word.maxUnsigned)
    (fits : negative → n ≠ 0 ∧ Word.FitsSigned (-n)) :
    numberOf negative (Nat.toDigits 10 n) none none = some (.int (Double.signed negative n)) := by
  have value : absorb 0 (Nat.toDigits 10 n) = (n, []) := by
    rw [absorb_eq] <;> rw [Nat.ofDigitChars_ten_toDigits]
    exact bounded
  rw [numberOf, value]
  cases negative <;> simp_all

theorem lexUnsigned_toDigits {negative : Bool} (bounded : n ≤ Word.maxUnsigned)
    (fits : negative → n ≠ 0 ∧ Word.FitsSigned (-n)) :
    lexUnsigned negative (Nat.toDigits 10 n) =
      some (.number (some (.int (Double.signed negative n))), []) := by
  simp [lexUnsigned, lexWhole_toDigits, lexFraction, lexExponent, numberOf_toDigits bounded fits]

theorem lexNumber_toDigits (bounded : n ≤ Word.maxUnsigned) :
    lexNumber (Nat.toDigits 10 n) = some (.number (some (.int n)), []) := by
  have read : lexUnsigned false (Nat.toDigits 10 n) = some (.number (some (.int n)), []) :=
    lexUnsigned_toDigits bounded nofun
  rw [lexNumber, read]
  intro rest same
  have digit : '-'.isDigit :=
    Nat.isDigit_of_mem_toDigits (b := 10) (n := n) (by decide) (by decide) (same ▸ .head _)
  exact absurd digit (by decide)

theorem lexNumber_minus_toDigits (positive : n ≠ 0) (fits : Word.FitsSigned (-n)) :
    lexNumber ('-' :: Nat.toDigits 10 n) = some (.number (some (.int (-n))), []) := by
  have bounded : n ≤ Word.maxUnsigned := by
    simp only [Word.FitsSigned, Word.minSigned, Word.maxUnsigned] at fits ⊢
    omega
  exact lexUnsigned_toDigits bounded fun _ => ⟨positive, fits⟩

theorem lexWhole_first (h : lexWhole (c :: text) = some (digits, left)) : c.isDigit := by
  by_cases zero : c = '0'
  case pos =>
    subst zero
    rfl
  case neg =>
    rw [lexWhole] at h
    · cases digit : c.isDigit
      case true => rfl
      case false => simp [digit] at h
    · simpa using zero

theorem lexNumber_first {number : Raw} (h : lexNumber (c :: text) = some (number, left)) :
    c = '-' ∨ c.isDigit := by
  by_cases minus : c = '-'
  case pos => exact .inl minus
  case neg =>
    rw [lexNumber] at h
    · obtain ⟨⟨whole, text⟩, wholes, _⟩ := Option.bind_eq_some_iff.mp h
      exact .inr (lexWhole_first wholes)
    · simpa using minus

end Raw

end Json

namespace Number

def Fits : Number → Prop
  | .int value => Word.FitsSigned value ∨ Word.FitsUnsigned value
  | .double _  => True

-- What the digits of a number are read as.
def reread? (number : Number) : Option Number :=
  match Json.Raw.lexNumber number.render.toList with
  | some (.number value, []) => value
  | _                        => none

def Stable (number : Number) : Prop :=
  number.reread? = some number

instance {number : Number} : Decidable number.Stable :=
  inferInstanceAs (Decidable (_ = _))

variable {number : Number}

theorem Stable.lexNumber (h : number.Stable) :
    Json.Raw.lexNumber number.render.toList = some (.number (some number), []) := by
  rw [Stable, reread?] at h
  split at h
  case h_1 read => rw [read, h]
  case h_2 => cases h

theorem render_ofNat (n : Nat) : (render (.int n)).toList = Nat.toDigits 10 n := by
  change (toString n).toList = _
  rw [Nat.toString_eq_ofList_toDigits, String.toList_ofList]

theorem render_negSucc (n : Nat) :
    (render (.int (.negSucc n))).toList = '-' :: Nat.toDigits 10 (n + 1) := by
  change ("-" ++ toString (n + 1)).toList = _
  simp

theorem stable_int {value : Int} (h : Fits (.int value)) : Stable (.int value) := by
  rw [Stable, reread?]
  cases value with
  | ofNat n =>
    have bounded : n ≤ Word.maxUnsigned := by
      rcases h with ⟨_, upper⟩ | ⟨_, upper⟩ <;>
        simp only [Int.ofNat_eq_natCast, Word.maxSigned, Word.maxUnsigned] at upper ⊢ <;> omega
    rw [Int.ofNat_eq_natCast, render_ofNat, Json.Raw.lexNumber_toDigits bounded]
  | negSucc n =>
    have fits : Word.FitsSigned (-(n + 1 : Nat)) := by
      rcases h with fits | ⟨lower, _⟩
      · exact fits
      · exact absurd lower (by omega)
    rw [render_negSucc, Json.Raw.lexNumber_minus_toDigits (by omega) fits]
    rfl

end Number

namespace Json

mutual

def numbers : Json → List Number
  | .number n                   => [n]
  | .array items                => numbersOfItems items
  | .object members             => numbersOfMembers members
  | .null | .bool _ | .string _ => []

def numbersOfItems : List Json → List Number
  | []           => []
  | item :: rest => numbers item ++ numbersOfItems rest

def numbersOfMembers : List (String × Json) → List Number
  | []                  => []
  | (_, member) :: rest => numbers member ++ numbersOfMembers rest

end

mutual

def raw : Json → Raw
  | .null           => .null
  | .bool value     => .bool value
  | .number n       => .number (some n)
  | .string text    => .string (some text)
  | .array items    => .array (rawItems items)
  | .object members => .object (rawMembers members)

def rawItems : List Json → List Raw
  | []           => []
  | item :: rest => raw item :: rawItems rest

def rawMembers : List (String × Json) → List (Option String × Raw)
  | []                    => []
  | (key, member) :: rest => (some key, raw member) :: rawMembers rest

end

namespace Raw

variable {text rest : List Char}

theorem skipBlanks_of_not_blank {c : Char} (h : isBlank c = false) :
    skipBlanks (c :: text) = c :: text :=
  List.dropWhile_cons_of_neg (by simp [h])

def Opens (text : List Char) : Prop :=
  ∃ c left, text = c :: left ∧ isBlank c = false ∧ c ≠ ']'

theorem Opens.append (h : Opens text) : Opens (text ++ rest) := by
  obtain ⟨c, left, rfl, solid, open'⟩ := h
  exact ⟨c, left ++ rest, rfl, solid, open'⟩

theorem opens_of_lexNumber {number : Raw} {left : List Char}
    (h : lexNumber text = some (number, left)) : Opens text := by
  cases text with
  | nil => cases h
  | cons c text =>
    refine ⟨c, text, rfl, ?_⟩
    rcases lexNumber_first h with rfl | digit
    · decide
    · have blank : isBlank c = false := by
        by_contra blank
        simp only [isBlank, Bool.not_eq_false, Bool.or_eq_true, decide_eq_true_eq] at blank
        rcases blank with ((rfl | rfl) | rfl) | rfl <;> cases digit
      refine ⟨blank, ?_⟩
      rintro rfl
      cases digit

theorem opens_render {json : Json} (stable : ∀ n ∈ json.numbers, n.Stable) :
    Opens json.render.toList := by
  cases json with
  | null => exact ⟨_, _, rfl, by decide⟩
  | bool value => cases value <;> exact ⟨_, _, rfl, by decide⟩
  | number n => exact opens_of_lexNumber (stable n (by simp [numbers])).lexNumber
  | string text => exact ⟨'"', _, by simp [render, renderString]; rfl, by decide⟩
  | array items => exact ⟨'[', _, by simp [render]; rfl, by decide⟩
  | object members => exact ⟨'{', _, by simp [render]; rfl, by decide⟩

theorem value_number {number : Raw} {left : List Char} {fuel : Nat}
    (h : lexNumber text = some (number, left)) : value (fuel + 1) text = some (number, left) := by
  obtain ⟨c, text, rfl, solid, _⟩ := opens_of_lexNumber h
  have first := lexNumber_first h
  rw [value, skipBlanks_of_not_blank solid]
  split
  case h_7 => exact h
  all_goals
    rename_i same
    cases same
    exact absurd first (by decide)

section Containers

variable {fuel : Nat} {item : Raw} {others : List Raw} {key : Option String} {left : List Char}
  {named : List (Option String × Raw)}

theorem value_array (opens : Opens text) (h : items fuel text = some (others, rest)) :
    value (fuel + 1) ('[' :: text) = some (.array others, rest) := by
  obtain ⟨c, text, rfl, solid, closing⟩ := opens
  have first : skipBlanks ('[' :: c :: text) = '[' :: c :: text := rfl
  simp [value, first, skipBlanks_of_not_blank solid, closing, h]

theorem value_object (opens : ∃ left, text = '"' :: left)
    (h : members fuel text = some (named, rest)) :
    value (fuel + 1) ('{' :: text) = some (.object named, rest) := by
  obtain ⟨left, rfl⟩ := opens
  have first : skipBlanks ('{' :: '"' :: left) = '{' :: '"' :: left := rfl
  have next : skipBlanks ('"' :: left) = '"' :: left := rfl
  simp [value, first, next, h]

theorem skipBlanks_of_stringLiteral {result : Option String × List Char}
    (h : stringLiteral text = some result) : skipBlanks text = text := by
  rw [stringLiteral.eq_def] at h
  split at h
  case h_1 => rfl
  case h_2 => cases h

theorem items_cons (first : value fuel text = some (item, ',' :: left))
    (later : items fuel left = some (others, rest)) :
    items (fuel + 1) text = some (item :: others, rest) := by
  have comma : skipBlanks (',' :: left) = ',' :: left := rfl
  simp [items, first, comma, later]

theorem items_last (last : value fuel text = some (item, ']' :: rest)) :
    items (fuel + 1) text = some ([item], rest) := by
  have bracket : skipBlanks (']' :: rest) = ']' :: rest := rfl
  simp [items, last, bracket]

theorem members_cons {next : List Char} (name : stringLiteral text = some (key, ':' :: left))
    (first : value fuel left = some (item, ',' :: next))
    (later : members fuel next = some (named, rest)) :
    members (fuel + 1) text = some ((key, item) :: named, rest) := by
  have colon : skipBlanks (':' :: left) = ':' :: left := rfl
  have comma : skipBlanks (',' :: next) = ',' :: next := rfl
  simp [members, skipBlanks_of_stringLiteral name, name, colon, first, comma, later]

theorem members_last (name : stringLiteral text = some (key, ':' :: left))
    (last : value fuel left = some (item, '}' :: rest)) :
    members (fuel + 1) text = some ([(key, item)], rest) := by
  have colon : skipBlanks (':' :: left) = ':' :: left := rfl
  have brace : skipBlanks ('}' :: rest) = '}' :: rest := rfl
  simp [members, skipBlanks_of_stringLiteral name, name, colon, last, brace]

end Containers

def itemsText (items : List Json) : List Char :=
  [','].intercalate ((renderItems items).map String.toList)

def membersText (members : List (String × Json)) : List Char :=
  [','].intercalate ((renderMembers members).map String.toList)

section Texts

variable {json next : Json} {key : String} {items : List Json} {members : List (String × Json)}

theorem toList_array : (render (.array items)).toList = '[' :: (itemsText items ++ [']']) := by
  simp [render, itemsText]

theorem toList_object :
    (render (.object members)).toList = '{' :: (membersText members ++ ['}']) := by
  simp [render, membersText]

theorem itemsText_singleton : itemsText [json] = json.render.toList := by
  simp [itemsText, renderItems]

theorem itemsText_cons :
    itemsText (json :: next :: items) = json.render.toList ++ ',' :: itemsText (next :: items) := by
  simp [itemsText, renderItems, List.intercalate_cons_cons]

theorem membersText_singleton :
    membersText [(key, json)] = (renderString key).toList ++ ':' :: json.render.toList := by
  simp [membersText, renderMembers]

theorem membersText_cons {member : String × Json} :
    membersText ((key, json) :: member :: members) =
      (renderString key).toList ++
        ':' :: (json.render.toList ++ ',' :: membersText (member :: members)) := by
  simp [membersText, renderMembers, List.intercalate_cons_cons]

end Texts

-- What so much fuel suffices for, by the lengths of the texts.
structure Reads (fuel : Nat) : Prop where
  value   : ∀ (json : Json) (rest : List Char), (∀ n ∈ json.numbers, n.Stable) →
    2 * json.render.toList.length ≤ fuel → Stops rest →
      value fuel (json.render.toList ++ rest) = some (json.raw, rest)
  items   : ∀ (item : Json) (others : List Json) (rest : List Char),
    (∀ n ∈ numbersOfItems (item :: others), n.Stable) →
    2 * (itemsText (item :: others)).length + 1 ≤ fuel →
      items fuel (itemsText (item :: others) ++ ']' :: rest) =
        some (rawItems (item :: others), rest)
  members : ∀ (member : String × Json) (others : List (String × Json)) (rest : List Char),
    (∀ n ∈ numbersOfMembers (member :: others), n.Stable) →
    2 * (membersText (member :: others)).length + 1 ≤ fuel →
      members fuel (membersText (member :: others) ++ '}' :: rest) =
        some (rawMembers (member :: others), rest)

theorem toList_renderString (text : String) :
    ∃ left, (renderString text).toList = '"' :: left :=
  ⟨text.toList.flatMap escapeChar ++ ['"'], by simp [renderString]⟩

theorem exists_membersText (member : String × Json) (others : List (String × Json)) :
    ∃ left, membersText (member :: others) = '"' :: left := by
  obtain ⟨key, json⟩ := member
  obtain ⟨left, literal⟩ := toList_renderString key
  cases others with
  | nil => exact ⟨_, by rw [membersText_singleton, literal]; rfl⟩
  | cons next others => exact ⟨_, by rw [membersText_cons, literal]; rfl⟩

theorem opens_itemsText {item : Json} {others : List Json}
    (stable : ∀ n ∈ numbersOfItems (item :: others), n.Stable) :
    Opens (itemsText (item :: others)) := by
  have opens : Opens item.render.toList :=
    opens_render fun n hm => stable n (List.mem_append_left _ hm)
  cases others with
  | nil => rwa [itemsText_singleton]
  | cons next others =>
    rw [itemsText_cons]
    exact opens.append

theorem stops_cons {c : Char} {rest : List Char} (h : c = ',' ∨ c = ']' ∨ c = '}') :
    Stops (c :: rest) := by
  rintro _ ⟨⟩
  exact h

namespace Reads

variable {fuel : Nat}

theorem zero : Reads 0 where
  value json rest stable enough _ := by
    obtain ⟨c, text, opens, _⟩ := opens_render stable
    rw [opens] at enough
    cases enough
  items _ _ _ _ enough   := absurd enough (by omega)
  members _ _ _ _ enough := absurd enough (by omega)

theorem value_succ (h : Reads fuel) (json : Json) (rest : List Char)
    (stable : ∀ n ∈ json.numbers, n.Stable) (enough : 2 * json.render.toList.length ≤ fuel + 1)
    (stops : Stops rest) :
    Raw.value (fuel + 1) (json.render.toList ++ rest) = some (json.raw, rest) := by
  cases json with
  | null => rfl
  | bool value => cases value <;> rfl
  | number n =>
    exact value_number (lexNumber_append stops (stable n (by simp [numbers])).lexNumber)
  | string text =>
    have read := stringLiteral_renderString text rest
    obtain ⟨left, literal⟩ := toList_renderString text
    rw [literal, List.cons_append] at read
    rw [render, literal, List.cons_append]
    have quote : skipBlanks ('"' :: (left ++ rest)) = '"' :: (left ++ rest) := rfl
    simp [Raw.value, quote, read, raw]
  | array items =>
    rw [toList_array] at enough ⊢
    cases items with
    | nil => rfl
    | cons item others =>
      simp only [List.length_cons, List.length_append, List.length_nil] at enough
      rw [List.cons_append, List.append_assoc]
      exact value_array (opens_itemsText stable).append
        (h.items item others rest stable (by omega))
  | object members =>
    rw [toList_object] at enough ⊢
    cases members with
    | nil => rfl
    | cons member others =>
      simp only [List.length_cons, List.length_append, List.length_nil] at enough
      obtain ⟨left, opens⟩ := exists_membersText member others
      rw [List.cons_append, List.append_assoc]
      exact value_object ⟨_, by rw [opens]; rfl⟩
        (h.members member others rest stable (by omega))

theorem items_succ (h : Reads fuel) (item : Json) (others : List Json) (rest : List Char)
    (stable : ∀ n ∈ numbersOfItems (item :: others), n.Stable)
    (enough : 2 * (itemsText (item :: others)).length + 1 ≤ fuel + 1) :
    Raw.items (fuel + 1) (itemsText (item :: others) ++ ']' :: rest) =
      some (rawItems (item :: others), rest) := by
  obtain ⟨first, later⟩ := List.forall_mem_append.mp stable
  cases others with
  | nil =>
    rw [itemsText_singleton] at enough ⊢
    exact items_last (h.value item _ first (by omega) (stops_cons (by decide)))
  | cons next others =>
    rw [itemsText_cons] at enough ⊢
    rw [List.length_append, List.length_cons] at enough
    rw [List.append_assoc]
    exact items_cons (h.value item _ first (by omega) (stops_cons (by decide)))
      (h.items next others rest later (by omega))

theorem members_succ (h : Reads fuel) (member : String × Json) (others : List (String × Json))
    (rest : List Char) (stable : ∀ n ∈ numbersOfMembers (member :: others), n.Stable)
    (enough : 2 * (membersText (member :: others)).length + 1 ≤ fuel + 1) :
    Raw.members (fuel + 1) (membersText (member :: others) ++ '}' :: rest) =
      some (rawMembers (member :: others), rest) := by
  obtain ⟨key, json⟩ := member
  obtain ⟨first, later⟩ := List.forall_mem_append.mp stable
  cases others with
  | nil =>
    rw [membersText_singleton] at enough ⊢
    rw [List.length_append, List.length_cons] at enough
    rw [List.append_assoc]
    exact members_last (stringLiteral_renderString key _)
      (h.value json _ first (by omega) (stops_cons (by decide)))
  | cons next others =>
    rw [membersText_cons] at enough ⊢
    rw [List.length_append, List.length_cons, List.length_append, List.length_cons] at enough
    rw [List.append_assoc, List.cons_append, List.append_assoc]
    exact members_cons (stringLiteral_renderString key _)
      (h.value json _ first (by omega) (stops_cons (by decide)))
      (h.members next others rest later (by omega))

end Reads

-- The core lemma for `parse?_render`, by one step for each function of the reader.
theorem reads (fuel : Nat) : Reads fuel := by
  induction fuel with
  | zero => exact .zero
  | succ fuel ih => exact ⟨ih.value_succ, ih.items_succ, ih.members_succ⟩

theorem parse?_render {json : Json} (stable : ∀ n ∈ json.numbers, n.Stable) :
    parse? json.render = some json.raw := by
  have read := (reads (2 * json.render.toList.length + 2)).value json [] stable (by omega) stops_nil
  rw [List.append_nil] at read
  rw [parse?, read]
  rfl

end Raw

end Json

end DurableWorkflow
