import DurableWorkflow.Proofs.Condition.Prefix
import DurableWorkflow.Proofs.Condition.Spelling
import DurableWorkflow.Proofs.Double.Integer
import DurableWorkflow.Proofs.Text.Blank

namespace DurableWorkflow.Condition

structure IsName (key : String) : Prop where
  begins : ∃ c ∈ key.toList.head?, Token.isNameStart c
  chars  : ∀ c ∈ key.toList, Token.isNameChar c
  free   : key ∉ Token.keywords

def comparisons : List (String × BinaryOp) :=
  [("==", .equal), ("!=", .notEqual), ("<", .less), ("<=", .lessEq)]

def comparison (symbol x y : String) : String :=
  "state." ++ x ++ " " ++ symbol ++ " state." ++ y

section

variable {key symbol x y : String} {op : BinaryOp} {last : Option Char} {c other : Char}
  {text tail : List Char} {token : Token} {tokens : List Token}

theorem mem_comparisons : (symbol, op) ∈ comparisons ↔
    (symbol = "==" ∧ op = .equal) ∨ (symbol = "!=" ∧ op = .notEqual) ∨
      (symbol = "<" ∧ op = .less) ∨ (symbol = "<=" ∧ op = .lessEq) := by
  simp [comparisons]

theorem toList_comparison :
    (comparison symbol x y).toList = "state.".toList ++ (x.toList ++ ' ' :: (symbol.toList ++ ' ' ::
      ("state.".toList ++ (y.toList ++ [])))) := by
  simp [comparison]

theorem ne_of_isNameChar (h : Token.isNameChar c) (outside : Token.isNameChar other = false) :
    c ≠ other := by
  rintro rfl
  rw [h] at outside
  cases outside

theorem isQuote_of_isNameChar (h : Token.isNameChar c) : isQuote c = false := by
  have single : c ≠ '\'' := ne_of_isNameChar h (by decide)
  have double : c ≠ '"' := ne_of_isNameChar h (by decide)
  simp [isQuote, single, double]

def Kept (text : List Char) : Prop :=
  ∀ last, normalizeFrom none last text = text

namespace Kept

theorem nil : Kept [] :=
  fun _ => rfl

theorem name (chars : ∀ c ∈ text, Token.isNameChar c)
    (ends : ∀ c ∈ tail.head?, Token.isNameChar c = false ∧ c ≠ '.') (h : Kept tail) :
    Kept (text ++ tail) := by
  induction text with
  | nil => exact h
  | cons c rest ih =>
    intro last
    obtain ⟨first, others⟩ := List.forall_mem_cons.mp chars
    have stands : (Piece.other c).Stands last (rest ++ tail) := by
      refine ⟨isQuote_of_isNameChar first, ?_, ?_, ?_⟩
      · rintro ⟨after, parts⟩
        exact ne_of_isNameChar first (by decide) (List.cons_eq_cons.mp parts).1.symm
      · rintro ⟨after, parts⟩
        exact ne_of_isNameChar first (by decide) (List.cons_eq_cons.mp parts).1.symm
      · rintro - ⟨after, parts⟩
        have dropped := (Text.span_append chars fun c hc => (ends c hc).1).2
        rw [List.cons_append, ← parts] at dropped
        exact (ends '.' (by rw [← dropped]; rfl)).2 rfl
    rw [List.cons_append, normalizeFrom_other stands, ih others]

theorem state (h : Kept tail) : Kept ("state.".toList ++ tail) := by
  intro last
  exact congrArg ("state.".toList ++ ·) (h _)

theorem relation (listed : (symbol, op) ∈ comparisons) (h : Kept tail) :
    Kept (' ' :: (symbol.toList ++ ' ' :: tail)) := by
  intro last
  rcases mem_comparisons.mp listed with ⟨rfl, -⟩ | ⟨rfl, -⟩ | ⟨rfl, -⟩ | ⟨rfl, -⟩
  · exact congrArg (" == ".toList ++ ·) (h _)
  · exact congrArg (" != ".toList ++ ·) (h _)
  · exact congrArg (" < ".toList ++ ·) (h _)
  · exact congrArg (" <= ".toList ++ ·) (h _)

end Kept

theorem normalize_comparison (hx : IsName x) (hy : IsName y)
    (listed : (symbol, op) ∈ comparisons) :
    normalize (comparison symbol x y) = comparison symbol x y := by
  have rest : Kept (y.toList ++ []) := .name hy.chars (by simp) .nil
  have whole := (Kept.name hx.chars (by rintro _ ⟨⟩; decide) (.relation listed (.state rest))).state
  rw [normalize, toList_comparison, whole none, ← toList_comparison, String.ofList_toList]

theorem isNameChar_of_isNameStart (h : Token.isNameStart c) : Token.isNameChar c := by
  simp only [Token.isNameStart, Token.isNameChar, Char.isAlphanum, Bool.or_eq_true] at h ⊢
  exact h.imp_left .inl

theorem isBlank_of_isNameStart (h : Token.isNameStart c) : Text.isBlank c = false := by
  rw [Token.isNameStart, Bool.or_eq_true, decide_eq_true_eq] at h
  rcases h with letter | rfl
  · exact Text.isBlank_of_isAlpha letter
  · decide

theorem isDigit_of_isNameStart (h : Token.isNameStart c) : c.isDigit = false := by
  rw [Token.isNameStart, Bool.or_eq_true, decide_eq_true_eq] at h
  rcases h with letter | rfl
  · rw [Text.isAlpha_iff] at letter
    simp [Char.isDigit, UInt32.le_iff_toNat_le]
    omega
  · decide

theorem lexString?_eq_none (first : isQuote c = false)
    (second : ∀ d ∈ text.head?, isQuote d = false) : Token.lexString? (c :: text) = none := by
  cases text with
  | nil => simp [Token.lexString?, first]
  | cons d rest => simp [Token.lexString?, first, second d rfl]

theorem skipBlanks_solid (noSlash : c ≠ '/') (solid : Text.isBlank c = false) :
    Token.skipBlanks false (c :: text) = c :: text := by
  unfold Token.skipBlanks
  split
  case h_1 empty    => cases empty
  case h_2 inside _ => cases inside
  case h_3 slashes  => exact absurd (List.cons.inj slashes).1 noSlash
  case h_4 parts    =>
    cases parts
    exact if_neg (Bool.eq_false_iff.mp solid)

theorem lexNumber?_name (h : Token.isNameStart c) : Token.lexNumber? (c :: text) = none := by
  have plain := isNameChar_of_isNameStart h
  have unsigned : c ≠ '+' ∧ c ≠ '-' :=
    ⟨ne_of_isNameChar plain (by decide), ne_of_isNameChar plain (by decide)⟩
  have noPoint : c ≠ '.' := ne_of_isNameChar plain (by decide)
  simp [Token.lexNumber?, Token.doubleLength, unsigned, noPoint, isDigit_of_isNameStart h]

def Scans (text : List Char) (tokens : List Token) : Prop :=
  ∀ fuel, tokens.length < fuel → Token.scanFrom fuel text = tokens

namespace Scans

theorem nil : Scans [] [] := by
  intro fuel enough
  cases fuel with
  | zero => cases enough
  | succ fuel => rfl

theorem blank (h : Scans text tokens) : Scans (' ' :: text) tokens := by
  intro fuel enough
  rw [← h fuel enough]
  cases fuel with
  | zero => cases enough
  | succ fuel =>
    have skipped : Token.skipBlanks false (' ' :: text) = Token.skipBlanks false text := rfl
    rw [Token.scanFrom, Token.scanFrom, skipped]

theorem cons (solid : Token.skipBlanks false (c :: text) = c :: text)
    (lexed : Token.lex? (c :: text) = some (token, tail)) (h : Scans tail tokens) :
    Scans (c :: text) (token :: tokens) := by
  intro fuel enough
  cases fuel with
  | zero => cases enough
  | succ fuel =>
    rw [Token.scanFrom, solid]
    simp only [lexed, h fuel (Nat.lt_of_succ_lt_succ enough)]

theorem scan {source : String} (h : Scans source.toList tokens)
    (short : tokens.length ≤ source.length) : Token.scan source = tokens :=
  h _ (Nat.lt_succ_of_le short)

theorem name (hn : IsName key)
    (ends : ∀ c ∈ tail.head?, Token.isNameChar c = false ∧ isQuote c = false)
    (h : Scans tail tokens) : Scans (key.toList ++ tail) (.name key :: tokens) := by
  obtain ⟨taken, dropped⟩ := Text.span_append hn.chars fun c hc => (ends c hc).1
  obtain ⟨c, head, begins⟩ := hn.begins
  obtain ⟨rest, parts⟩ := List.head?_eq_some_iff.mp head
  have chars := hn.chars
  rw [parts] at chars taken dropped ⊢
  rw [List.cons_append] at taken dropped ⊢
  obtain ⟨first, others⟩ := List.forall_mem_cons.mp chars
  have unquoted : ∀ d ∈ (rest ++ tail).head?, isQuote d = false := by
    intro d hd
    cases rest with
    | nil => exact (ends d hd).2
    | cons d' rest =>
      obtain rfl := Option.some_inj.mp hd
      exact isQuote_of_isNameChar (others _ List.mem_cons_self)
  have solid : Token.skipBlanks false (c :: (rest ++ tail)) = c :: (rest ++ tail) :=
    skipBlanks_solid (ne_of_isNameChar first (by decide)) (isBlank_of_isNameStart begins)
  have whole : String.ofList (c :: (rest ++ tail).takeWhile Token.isNameChar) = key := by
    rw [List.takeWhile_cons_of_pos first] at taken
    rw [taken, ← parts, String.ofList_toList]
  rw [List.dropWhile_cons_of_pos first] at dropped
  refine cons solid ?_ h
  rw [Token.lex?, lexString?_eq_none (isQuote_of_isNameChar first) unquoted,
    lexNumber?_name begins, Token.lexName?, if_pos begins, whole, dropped]
  simp [hn.free]

theorem dot (h : Scans tail tokens) (begins : ∃ c ∈ tail.head?, Token.isNameStart c) :
    Scans ('.' :: tail) (.mark "." :: tokens) := by
  obtain ⟨c, head, begins⟩ := begins
  obtain ⟨rest, rfl⟩ := List.head?_eq_some_iff.mp head
  have unquoted : ∀ d ∈ (c :: rest).head?, isQuote d = false := by
    rintro d ⟨⟩
    exact isQuote_of_isNameChar (isNameChar_of_isNameStart begins)
  have noNumber : Token.lexNumber? ('.' :: c :: rest) = none := by
    simp [Token.lexNumber?, Token.doubleLength, isDigit_of_isNameStart begins]
  refine cons rfl ?_ h
  rw [Token.lex?, lexString?_eq_none (by decide) unquoted, noNumber]
  rfl

theorem relation (listed : (symbol, op) ∈ comparisons) (h : Scans tail tokens) :
    Scans (' ' :: (symbol.toList ++ ' ' :: tail)) (.mark symbol :: tokens) := by
  refine blank ?_
  rcases mem_comparisons.mp listed with ⟨rfl, -⟩ | ⟨rfl, -⟩ | ⟨rfl, -⟩ | ⟨rfl, -⟩
  · exact cons rfl rfl h.blank
  · exact cons rfl rfl h.blank
  · exact cons rfl rfl h.blank
  · exact cons rfl rfl h.blank

theorem member (hn : IsName key)
    (ends : ∀ c ∈ tail.head?, Token.isNameChar c = false ∧ isQuote c = false)
    (h : Scans tail tokens) :
    Scans ("state.".toList ++ (key.toList ++ tail))
      (.name "state" :: .mark "." :: .name key :: tokens) := by
  have state : IsName "state" := ⟨⟨'s', rfl, by decide⟩, List.all_eq_true.mp rfl, by decide⟩
  have begins : ∃ c ∈ (key.toList ++ tail).head?, Token.isNameStart c := by
    obtain ⟨c, head, begins⟩ := hn.begins
    exact ⟨c, by rw [List.head?_append, Option.mem_def.mp head]; rfl, begins⟩
  exact (dot (name hn ends h) begins).name state (by rintro _ ⟨⟩; decide)

end Scans

def comparisonTokens (symbol x y : String) : List Token :=
  [.name "state", .mark ".", .name x, .mark symbol, .name "state", .mark ".", .name y]

def member (key : String) : Expr :=
  .member (.variable "state") key

theorem parse_comparison (hx : IsName x) (hy : IsName y) (listed : (symbol, op) ∈ comparisons) :
    parse (comparison symbol x y) =
      .returned (.ok ⟨comparison symbol x y, .binary op (member x) (member y)⟩) := by
  have scanned : Token.scan (normalize (comparison symbol x y)) = comparisonTokens symbol x y := by
    rw [normalize_comparison hx hy listed]
    have short : (comparisonTokens symbol x y).length ≤ (comparison symbol x y).length := by
      rw [← String.length_toList, toList_comparison]
      simp [comparisonTokens]
      omega
    refine Scans.scan ?_ short
    rw [toList_comparison]
    have right : Scans ("state.".toList ++ (y.toList ++ [])) _ := .member hy (by simp) .nil
    exact .member hx (by rintro _ ⟨⟩; decide) (.relation listed right)
  have read : Expr.read ((comparisonTokens symbol x y).length + 2) (comparisonTokens symbol x y) =
      .ok (.binary op (member x) (member y), []) := by
    rcases mem_comparisons.mp listed with ⟨rfl, rfl⟩ | ⟨rfl, rfl⟩ | ⟨rfl, rfl⟩ | ⟨rfl, rfl⟩
    · rfl
    · rfl
    · rfl
    · rfl
  exact parse_eq_of_tokens scanned read

end

section

variable {state value left right : Json} {key symbol x y : String} {op : BinaryOp} {place : Place}
  {a b p q : Int} {case case' : Prop}

theorem eval_member (found : state.member? key = some value) :
    (member key).eval place (bindings state) = .ok (Value.ofJson value) := by
  cases state with
  | object members =>
    obtain ⟨entry, first, rfl⟩ := Option.map_eq_some_iff.mp found
    simp [member, Expr.eval, variableOf_state, memberOf, lookup_ofMembers, first, bind, Except.bind]
  | _ => cases found

def Decides (source : String) (state : Json) (case : Prop) : Prop :=
  ∃ condition result, parse source = .returned (.ok condition) ∧
    condition.evaluate state = .returned result ∧ (result = true ↔ case)

theorem Decides.congr {source : String} (h : Decides source state case) (same : case ↔ case') :
    Decides source state case' :=
  propext same ▸ h

theorem decides_comparison (hx : IsName x) (hy : IsName y) (listed : (symbol, op) ∈ comparisons)
    (foundX : state.member? x = some left) (foundY : state.member? y = some right) {result : Bool}
    (applied : op.apply [] (Value.ofJson left) (Value.ofJson right) = .ok (.bool result))
    (correct : result = true ↔ case) : Decides (comparison symbol x y) state case := by
  refine ⟨_, result, parse_comparison hx hy listed, ?_, correct⟩
  have notOr : op ≠ .or := by
    rintro rfl
    simp [comparisons] at listed
  have value : (Expr.binary op (member x) (member y)).eval [] (bindings state) =
      .ok (.bool result) := by
    rw [Expr.eval]
    · simp only [eval_member foundX, eval_member foundY]
      exact applied
    · exact notOr
  simp only [evaluate, value]
  rfl

structure Compared (state : Json) (x y : String) (a b : Int) : Prop where
  equal    : Decides (comparison "==" x y) state (a = b)
  notEqual : Decides (comparison "!=" x y) state (a ≠ b)
  less     : Decides (comparison "<" x y) state (a < b)
  lessEq   : Decides (comparison "<=" x y) state (a ≤ b)

theorem Compared.congr (h : Compared state x y p q) (equal : p = q ↔ a = b)
    (less : p < q ↔ a < b) : Compared state x y a b where
  equal    := h.equal.congr equal
  notEqual := h.notEqual.congr equal.not
  less     := h.less.congr less
  lessEq   := h.lessEq.congr (by omega)

theorem compared_of_values (hx : IsName x) (hy : IsName y) (foundX : state.member? x = some left)
    (foundY : state.member? y = some right)
    (equals : (Value.ofJson right).equals (Value.ofJson left) = decide (q = p))
    (order : (Value.ofJson left).compare? (Value.ofJson right) = some (compare p q)) :
    Compared state x y p q where
  equal :=
    decides_comparison hx hy (show ("==", .equal) ∈ _ by decide) foundX foundY
      (by rw [BinaryOp.apply, equals]) (decide_eq_true_iff.trans eq_comm)
  notEqual :=
    decides_comparison hx hy (show ("!=", .notEqual) ∈ _ by decide) foundX foundY
      (by rw [BinaryOp.apply, equals])
      (by rw [Bool.not_eq_true', decide_eq_false_iff_not, eq_comm])
  less :=
    decides_comparison hx hy (show ("<", .less) ∈ _ by decide) foundX foundY
      (by rw [BinaryOp.apply, ordered, order]) (by rw [Ordering.isLT_iff_eq_lt, Int.compare_eq_lt])
  lessEq :=
    decides_comparison hx hy (show ("<=", .lessEq) ∈ _ by decide) foundX foundY
      (by rw [BinaryOp.apply, ordered, order]) Int.isLE_compare

end

section

variable {state : Json} {x y : String} {a b : Int}

open Double

-- The numbers of JSON texts that are integers.
def InRange (i : Int) : Prop :=
  Word.minSigned ≤ i ∧ i ≤ Word.maxUnsigned

instance (i : Int) : Decidable (InRange i) :=
  inferInstanceAs (Decidable (_ ∧ _))

theorem InRange.log2_le (h : InRange a) : a.natAbs.log2 ≤ 63 := by
  have bound : a.natAbs < 2 ^ 64 := by
    simp only [InRange, Word.minSigned, Word.maxUnsigned] at h
    omega
  by_cases zero : a.natAbs = 0
  case pos => simp [zero]
  case neg => exact Nat.le_of_lt_succ ((Nat.log2_lt zero).mpr bound)

theorem InRange.lastPlace_le (h : InRange a) : lastPlace a.natAbs ≤ 2048 :=
  calc 2 ^ (a.natAbs.log2 - 52)
    _ ≤ 2 ^ 11 := Nat.pow_le_pow_right Nat.two_pos (by have := h.log2_le; omega)

theorem ofJson_int (fits : Word.FitsSigned a) : Value.ofJson (.int a) = .int a :=
  if_pos fits

theorem ofJson_large (large : ¬Word.FitsSigned a) : Value.ofJson (.int a) = .double (.ofInt a) :=
  if_neg large

theorem compares_doubles (large : ¬(Word.FitsSigned a ∧ Word.FitsSigned b)) :
    (Value.ofJson (.int b)).equals (Value.ofJson (.int a)) = (Double.ofInt b).equals (.ofInt a) ∧
      (Value.ofJson (.int a)).compare? (Value.ofJson (.int b)) =
        (Double.ofInt a).compare? (.ofInt b) := by
  by_cases fitsA : Word.FitsSigned a
  case pos =>
    have largeB : ¬Word.FitsSigned b := fun fitsB => large ⟨fitsA, fitsB⟩
    simp [ofJson_int fitsA, ofJson_large largeB, Value.equals, Value.compare?]
  case neg =>
    by_cases fitsB : Word.FitsSigned b
    case pos => simp [ofJson_large fitsA, ofJson_int fitsB, Value.equals, Value.compare?]
    case neg => simp [ofJson_large fitsA, ofJson_large fitsB, Value.equals, Value.compare?]

theorem equals_ofInt (ha : InRange a) (hb : InRange b) :
    (ofInt b).equals (ofInt a) = decide (nearest b = nearest a) := by
  have small := ha.log2_le
  have small' := hb.log2_le
  rw [Double.equals, compare?_ofInt (by omega) (by omega)]
  simp

theorem nearest_lt (ha : InRange a) (hb : InRange b) (apart : a + 2048 < b) :
    nearest a < nearest b := by
  have moveA := natAbs_nearest_sub_le (i := a)
  have moveB := natAbs_nearest_sub_le (i := b)
  have := ha.lastPlace_le
  have := hb.lastPlace_le
  omega

-- Two integers in the state compare as they are if both fit 64 bits with a sign. If one does not,
-- they compare like the doubles nearest to them, which are never the other way round, and are in
-- the same order if the integers are doubles themselves, or are equal or far enough apart.
theorem compared_integers (hx : IsName x) (hy : IsName y) (foundX : state.member? x = some (.int a))
    (foundY : state.member? y = some (.int b)) (ha : InRange a) (hb : InRange b) :
    (a ≤ Word.maxSigned → b ≤ Word.maxSigned → Compared state x y a b) ∧
    (Word.maxSigned < a ∨ Word.maxSigned < b → Compared state x y (nearest a) (nearest b)) ∧
    (a ≤ b → nearest a ≤ nearest b) ∧
    ((lastPlace a.natAbs ∣ a.natAbs ∧ lastPlace b.natAbs ∣ b.natAbs) ∨ a = b ∨
      2048 < (a - b).natAbs → Compared state x y a b) := by
  have exact (fitsA : a ≤ Word.maxSigned) (fitsB : b ≤ Word.maxSigned) :
      Compared state x y a b := by
    refine compared_of_values hx hy foundX foundY ?_ ?_
    all_goals
      rw [ofJson_int ⟨ha.1, fitsA⟩, ofJson_int ⟨hb.1, fitsB⟩]
      rfl
  have rounded (large : Word.maxSigned < a ∨ Word.maxSigned < b) :
      Compared state x y (nearest a) (nearest b) := by
    have unfit : ¬(Word.FitsSigned a ∧ Word.FitsSigned b) := by
      rintro ⟨⟨-, fitsA⟩, -, fitsB⟩
      omega
    obtain ⟨equals, order⟩ := compares_doubles unfit
    have small := ha.log2_le
    have small' := hb.log2_le
    exact compared_of_values hx hy foundX foundY (equals.trans (equals_ofInt ha hb))
      (order.trans (compare?_ofInt (by omega) (by omega)))
  refine ⟨exact, rounded, nearest_mono, fun apart => ?_⟩
  by_cases fits : a ≤ Word.maxSigned ∧ b ≤ Word.maxSigned
  case pos => exact exact fits.1 fits.2
  case neg =>
    have rounded := rounded (by omega)
    rcases apart with ⟨wholeA, wholeB⟩ | rfl | apart
    · rwa [nearest_of_dvd wholeA, nearest_of_dvd wholeB] at rounded
    · exact rounded.congr (by simp) (by simp)
    · rcases Int.lt_or_le a b with less | greater
      · have := nearest_lt ha hb (by omega)
        exact rounded.congr (by omega) (by omega)
      · have := nearest_lt hb ha (by omega)
        exact rounded.congr (by omega) (by omega)

end

namespace Identifiers

def state : Json :=
  .ofMembers [("last", .int 9223372036854775807), ("next", .int 9223372036854780000)]

theorem compared_identifiers :
    Compared state "last" "next" 9223372036854775807 9223372036854780000 := by
  have last : IsName "last" := ⟨⟨'l', rfl, by decide⟩, List.all_eq_true.mp rfl, by decide⟩
  have next : IsName "next" := ⟨⟨'n', rfl, by decide⟩, List.all_eq_true.mp rfl, by decide⟩
  have found : state.member? "last" = some (.int 9223372036854775807) := rfl
  have found' : state.member? "next" = some (.int 9223372036854780000) := rfl
  exact (compared_integers last next found found' (by decide) (by decide)).2.2.2
    (.inr (.inr (by decide)))

def neighbours : Json :=
  .ofMembers [("x", .int 9223372036854775808), ("y", .int 9223372036854775809)]

def source : String := "state.x == state.y"

def expr : Expr :=
  .binary .equal (.member (.variable "state") "x") (.member (.variable "state") "y")

-- Neighbours that do not fit are taken to be equal.
theorem neighbours_equal :
    Condition.parse source = .returned (.ok ⟨source, expr⟩) ∧
      evaluate ⟨source, expr⟩ neighbours = .returned true ∧
      ¬Decides source neighbours ((9223372036854775808 : Int) = 9223372036854775809) := by
  have parsed : Condition.parse source = .returned (.ok ⟨source, expr⟩) :=
    parse_eq_of_tokens (show _ = comparisonTokens "==" "x" "y" by decide +kernel) (by rfl)
  have holds : evaluate ⟨source, expr⟩ neighbours = .returned true := by decide +kernel
  refine ⟨parsed, holds, ?_⟩
  rintro ⟨condition, result, parsed', evaluated, correct⟩
  rw [parsed] at parsed'
  cases parsed'
  rw [holds] at evaluated
  cases evaluated
  exact absurd (correct.mp rfl) (by decide)

end Identifiers

end DurableWorkflow.Condition
