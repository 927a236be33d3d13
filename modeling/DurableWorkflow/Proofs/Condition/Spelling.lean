import DurableWorkflow.Condition.Token
import Mathlib.Data.List.Basic
import Mathlib.Logic.Function.Iterate

namespace DurableWorkflow.Condition

def thisState : List Char :=
  ['t', 'h', 'i', 's', '.', 's', 't', 'a', 't', 'e']

inductive Piece
  | literal (quote : Char) (body : List Char) (closed : Bool)
  | strictEqual
  | strictUnequal
  | path
  -- A path whose name only begins with `state`, up to there.
  | stem
  | other (c : Char)
  deriving DecidableEq

namespace Piece

def source : Piece → List Char
  | literal quote body closed => quote :: body ++ if closed then [quote] else []
  | strictEqual => ['=', '=', '=']
  | strictUnequal => ['!', '=', '=']
  | path | stem => thisState
  | other c => [c]

def spelled : Piece → List Char
  | strictEqual => ['=', '=']
  | strictUnequal => ['!', '=']
  | path | stem => ['s', 't', 'a', 't', 'e']
  | piece => piece.source

def meant : Piece → List Char
  | stem => thisState
  | piece => piece.spelled

end Piece

inductive Body (quote : Char) : List Char → Prop
  | nil : Body quote []
  | plain {c body} : c ≠ quote → c ≠ '\\' → Body quote body → Body quote (c :: body)
  | escaped {c body} : Body quote body → Body quote ('\\' :: c :: body)

-- The inside of a literal that is not closed. Its last character may be a backslash.
inductive OpenBody (quote : Char) : List Char → Prop
  | nil : OpenBody quote []
  | backslash : OpenBody quote ['\\']
  | plain {c body} : c ≠ quote → c ≠ '\\' → OpenBody quote body → OpenBody quote (c :: body)
  | escaped {c body} : OpenBody quote body → OpenBody quote ('\\' :: c :: body)

-- A path begins where no identifier or path goes on.
def Begins (last : Option Char) : Prop :=
  ∀ c ∈ last, Token.isNameChar c = false ∧ c ≠ '.'

def Continues (after : List Char) : Prop :=
  ∃ c ∈ after.head?, Token.isNameChar c

def Piece.Stands (last : Option Char) (after : List Char) : Piece → Prop
  | literal quote body true => isQuote quote ∧ Body quote body
  | literal quote body false => isQuote quote ∧ OpenBody quote body ∧ after = []
  | strictEqual | strictUnequal => True
  | path => Begins last ∧ ¬Continues after
  | stem => Begins last ∧ Continues after
  | other c =>
    isQuote c = false ∧ ¬strictEqual.source <+: c :: after ∧ ¬strictUnequal.source <+: c :: after ∧
      (Begins last → ¬thisState <+: c :: after)

inductive Cut : Option Char → List Char → List Piece → Prop
  | nil {last} : Cut last [] []
  | cons {last piece after pieces} :
    piece.Stands last after → Cut piece.source.getLast? after pieces →
    Cut last (piece.source ++ after) (piece :: pieces)

section

variable {last : Option Char} {quote c : Char} {body text after : List Char} {piece : Piece}
  {pieces : List Piece}

theorem begins_iff : Begins last ↔ ¬last.any continuesPath := by
  cases last <;> simp [Begins, continuesPath, Token.isNameChar]

theorem isQuote_iff : isQuote c ↔ c = '\'' ∨ c = '"' := by
  simp [isQuote]

theorem ne_backslash_of_isQuote (h : isQuote c) : c ≠ '\\' := by
  rintro rfl
  exact absurd h (by decide)

@[simp]
theorem normalizeFrom_nil (quoted : Option Char) : normalizeFrom quoted last [] = [] := by
  cases quoted <;> rfl

theorem normalizeFrom_escaped :
    normalizeFrom (some quote) last ('\\' :: c :: text) =
      '\\' :: c :: normalizeFrom (some quote) (some c) text :=
  rfl

theorem normalizeFrom_inside (plain : c ≠ '\\') :
    normalizeFrom (some quote) last (c :: text) =
      c :: normalizeFrom (if c = quote then none else some quote) (some c) text := by
  rw [normalizeFrom.eq_4]
  · exact fun slash _ => plain slash
  · exact fun _ _ slash _ => plain slash

theorem normalizeFrom_strictEqual :
    normalizeFrom none last (Piece.strictEqual.source ++ text) =
      Piece.strictEqual.spelled ++ normalizeFrom none (some '=') text :=
  rfl

theorem normalizeFrom_strictUnequal :
    normalizeFrom none last (Piece.strictUnequal.source ++ text) =
      Piece.strictUnequal.spelled ++ normalizeFrom none (some '=') text :=
  rfl

theorem normalizeFrom_thisState :
    normalizeFrom none last (thisState ++ text) =
      (if last.any continuesPath then thisState else Piece.path.spelled) ++
        normalizeFrom none (some 'e') text := by
  cases inside : last.any continuesPath
  case false => exact if_neg (Bool.eq_false_iff.mp inside)
  case true  => exact if_pos inside

theorem normalizeFrom_outside (noEqual : ¬Piece.strictEqual.source <+: c :: text)
    (noUnequal : ¬Piece.strictUnequal.source <+: c :: text) (noPath : ¬thisState <+: c :: text) :
    normalizeFrom none last (c :: text) =
      c :: normalizeFrom (if isQuote c then some c else none) (some c) text := by
  rw [normalizeFrom.eq_8]
  · rintro rest rfl rfl
    exact noEqual ⟨rest, rfl⟩
  · rintro rest rfl rfl
    exact noUnequal ⟨rest, rfl⟩
  · rintro rest rfl rfl
    exact noPath ⟨rest, rfl⟩

theorem exists_body (quote : Char) (text : List Char) :
    (∃ body after, text = body ++ quote :: after ∧ Body quote body) ∨ OpenBody quote text := by
  match text with
  | [] => exact .inr .nil
  | c :: rest =>
    by_cases closing : c = quote
    case pos => exact .inl ⟨[], rest, by rw [closing]; rfl, .nil⟩
    by_cases backslash : c = '\\'
    case pos =>
      subst backslash
      match rest with
      | [] => exact .inr .backslash
      | kept :: rest =>
        rcases exists_body quote rest with ⟨body, after, rfl, inside⟩ | inside
        · exact .inl ⟨_, after, rfl, .escaped inside⟩
        · exact .inr (.escaped inside)
    case neg =>
      rcases exists_body quote rest with ⟨body, after, rfl, inside⟩ | inside
      · exact .inl ⟨_, after, rfl, .plain closing backslash inside⟩
      · exact .inr (.plain closing backslash inside)

theorem normalizeFrom_body (h : Body quote body) (noBackslash : quote ≠ '\\') :
    normalizeFrom (some quote) last (body ++ quote :: after) =
      body ++ quote :: normalizeFrom none (some quote) after := by
  induction h generalizing last with
  | nil => rw [List.nil_append, List.nil_append, normalizeFrom_inside noBackslash, if_pos rfl]
  | plain noQuote plain _ ih =>
    rw [List.cons_append, normalizeFrom_inside plain, if_neg noQuote, ih, List.cons_append]
  | escaped _ ih =>
    rw [List.cons_append, List.cons_append, normalizeFrom_escaped, ih, List.cons_append,
      List.cons_append]

theorem normalizeFrom_openBody (h : OpenBody quote body) :
    normalizeFrom (some quote) last body = body := by
  induction h generalizing last with
  | nil => exact normalizeFrom_nil _
  | backslash => rfl
  | plain noQuote plain _ ih => rw [normalizeFrom_inside plain, if_neg noQuote, ih]
  | escaped _ ih => rw [normalizeFrom_escaped, ih]

theorem normalizeFrom_quote (h : isQuote c) :
    normalizeFrom none last (c :: text) = c :: normalizeFrom (some c) (some c) text := by
  rcases isQuote_iff.mp h with rfl | rfl <;> rfl

theorem normalizeFrom_other (h : (Piece.other c).Stands last after) :
    normalizeFrom none last (c :: after) = c :: normalizeFrom none (some c) after := by
  obtain ⟨noQuote, noEqual, noUnequal, noPath⟩ := h
  by_cases here : thisState <+: c :: after
  case pos =>
    -- The path goes on from what is before it, so that its characters are copied.
    obtain ⟨rest, path⟩ := here
    have inside : last.any continuesPath := by
      by_contra begins
      exact noPath (begins_iff.mpr begins) ⟨rest, path⟩
    rw [← path, normalizeFrom_thisState, if_pos inside]
    obtain ⟨rfl, rfl⟩ := List.cons_eq_cons.mp path
    rfl
  case neg =>
    rw [normalizeFrom_outside noEqual noUnequal here, if_neg (Bool.eq_false_iff.mp noQuote)]

theorem normalizeFrom_source (h : piece.Stands last after) :
    normalizeFrom none last (piece.source ++ after) =
      piece.spelled ++ normalizeFrom none piece.source.getLast? after := by
  cases piece with
  | literal quote body closed =>
    cases closed with
    | true =>
      obtain ⟨isQuote, inside⟩ := h
      simp [Piece.source, Piece.spelled, normalizeFrom_quote isQuote, List.getLast?_cons,
        normalizeFrom_body inside (ne_backslash_of_isQuote isQuote)]
    | false =>
      obtain ⟨isQuote, inside, rfl⟩ := h
      simp [Piece.source, Piece.spelled, normalizeFrom_quote isQuote, normalizeFrom_openBody inside]
  | strictEqual => exact normalizeFrom_strictEqual
  | strictUnequal => exact normalizeFrom_strictUnequal
  | path | stem =>
    refine normalizeFrom_thisState.trans ?_
    rw [if_neg (begins_iff.mp h.1)]
    rfl
  | other c => exact normalizeFrom_other h

theorem Cut.normalizeFrom_eq (h : Cut last text pieces) :
    normalizeFrom none last text = pieces.flatMap Piece.spelled := by
  induction h with
  | nil => rfl
  | cons stands _ ih => rw [normalizeFrom_source stands, ih, List.flatMap_cons]

theorem source_ne_nil (piece : Piece) : piece.source ≠ [] := by
  cases piece <;> simp [Piece.source, thisState]

theorem exists_stands (last : Option Char) (c : Char) (rest : List Char) :
    ∃ (piece : Piece) (after : List Char),
      piece.Stands last after ∧ piece.source ++ after = c :: rest := by
  by_cases quoted : isQuote c
  case pos =>
    rcases exists_body c rest with ⟨body, after, rfl, inside⟩ | inside
    · exact ⟨.literal c body true, after, ⟨quoted, inside⟩, by simp [Piece.source]⟩
    · exact ⟨.literal c rest false, [], ⟨quoted, inside, rfl⟩, by simp [Piece.source]⟩
  by_cases equal : Piece.strictEqual.source <+: c :: rest
  case pos =>
    obtain ⟨after, parts⟩ := equal
    exact ⟨.strictEqual, after, trivial, parts⟩
  by_cases unequal : Piece.strictUnequal.source <+: c :: rest
  case pos =>
    obtain ⟨after, parts⟩ := unequal
    exact ⟨.strictUnequal, after, trivial, parts⟩
  by_cases path : Begins last ∧ thisState <+: c :: rest
  case pos =>
    obtain ⟨begins, after, parts⟩ := path
    by_cases goesOn : Continues after
    case pos => exact ⟨.stem, after, ⟨begins, goesOn⟩, parts⟩
    case neg => exact ⟨.path, after, ⟨begins, goesOn⟩, parts⟩
  case neg =>
    rw [not_and] at path
    exact ⟨.other c, rest, ⟨by simpa using quoted, equal, unequal, path⟩, rfl⟩

theorem exists_cut (last : Option Char) (text : List Char) : ∃ pieces, Cut last text pieces := by
  induction hn : text.length using Nat.strongRecOn generalizing last text with
  | _ n ih =>
    subst hn
    cases text with
    | nil => exact ⟨[], .nil⟩
    | cons c rest =>
      obtain ⟨piece, after, stands, parts⟩ := exists_stands last c rest
      have nonempty := List.length_pos_of_ne_nil (source_ne_nil piece)
      have shorter : after.length < (c :: rest).length := by
        rw [← parts, List.length_append]
        omega
      obtain ⟨pieces, cut⟩ := ih after.length shorter piece.source.getLast? after rfl
      exact ⟨piece :: pieces, parts ▸ .cons stands cut⟩

theorem Body.unique {other rest : List Char} (h : Body quote body) (h' : Body quote other)
    (noBackslash : quote ≠ '\\') (same : body ++ quote :: after = other ++ quote :: rest) :
    body = other ∧ after = rest := by
  induction h generalizing other with
  | nil => cases h' <;> grind
  | plain noQuote plain _ ih => cases h' <;> grind
  | escaped _ ih => cases h' <;> grind

theorem OpenBody.not_closed (h : OpenBody quote text) (noBackslash : quote ≠ '\\')
    (h' : Body quote body) : body ++ quote :: after ≠ text := by
  induction h generalizing body with
  | nil => simp
  | backslash => cases h' <;> grind
  | plain noQuote plain _ ih => cases h' <;> grind
  | escaped _ ih => cases h' <;> grind

theorem Piece.Stands.literal_unique {other rest : List Char} {closed ending : Bool}
    (h : (literal quote body closed).Stands last after)
    (h' : (literal quote other ending).Stands last rest)
    (same :
      (literal quote body closed).source ++ after = (literal quote other ending).source ++ rest) :
    literal quote body closed = literal quote other ending ∧ after = rest := by
  have inside := (List.cons_eq_cons.mp same).2
  cases closed <;> cases ending
  case true.true =>
    have noBackslash := ne_backslash_of_isQuote h.1
    obtain ⟨rfl, rfl⟩ := h.2.unique h'.2 noBackslash (by simpa using inside)
    exact ⟨rfl, rfl⟩
  case true.false =>
    obtain ⟨quoted, opened, rfl⟩ := h'
    exact absurd (by simpa using inside) (opened.not_closed (ne_backslash_of_isQuote quoted) h.2)
  case false.true =>
    obtain ⟨quoted, opened, rfl⟩ := h
    exact absurd (by simpa using inside.symm)
      (opened.not_closed (ne_backslash_of_isQuote quoted) h'.2)
  case false.false =>
    obtain ⟨-, -, rfl⟩ := h
    obtain ⟨-, -, rfl⟩ := h'
    obtain rfl : body = other := by simpa using inside
    exact ⟨rfl, rfl⟩

theorem Piece.Stands.isQuote_iff (h : piece.Stands last after)
    (first : (piece.source ++ after).head? = some c) :
    isQuote c ↔ ∃ quote body closed, piece = .literal quote body closed := by
  cases piece with
  | literal quote body closed =>
    obtain rfl := Option.some_inj.mp first
    exact iff_of_true (by cases closed <;> exact h.1) ⟨quote, body, closed, rfl⟩
  | other =>
    obtain rfl := Option.some_inj.mp first
    exact iff_of_false (by simp [h.1]) nofun
  | _ =>
    obtain rfl := Option.some_inj.mp first
    exact iff_of_false (by decide) nofun

theorem Piece.Stands.plain_unique {other : Piece} {rest : List Char}
    (plain : ¬∃ quote body closed, piece = .literal quote body closed)
    (plain' : ¬∃ quote body closed, other = .literal quote body closed)
    (h : piece.Stands last after) (h' : other.Stands last rest)
    (same : piece.source ++ after = other.source ++ rest) : piece = other ∧ after = rest := by
  cases piece <;> cases other
  all_goals simp_all [Piece.source, thisState, Piece.Stands]
  all_goals
    obtain ⟨rfl, rfl⟩ := same
    simp at h'

theorem Piece.Stands.unique {other : Piece} {rest : List Char} (h : piece.Stands last after)
    (h' : other.Stands last rest) (same : piece.source ++ after = other.source ++ rest) :
    piece = other ∧ after = rest := by
  obtain ⟨c, _, first⟩ := List.exists_cons_of_ne_nil (source_ne_nil piece)
  have head : (piece.source ++ after).head? = some c := by
    rw [first]
    rfl
  have head' : (other.source ++ rest).head? = some c := same ▸ head
  by_cases quoted : isQuote c
  case pos =>
    obtain ⟨quote, body, closed, rfl⟩ := (h.isQuote_iff head).mp quoted
    obtain ⟨quote', body', closed', rfl⟩ := (h'.isQuote_iff head').mp quoted
    obtain rfl := Option.some_inj.mp head
    obtain rfl := Option.some_inj.mp head'
    exact h.literal_unique h' same
  case neg =>
    exact Piece.Stands.plain_unique (mt (h.isQuote_iff head).mpr quoted)
      (mt (h'.isQuote_iff head').mpr quoted) h h' same

theorem Cut.uncons (h : Cut last text pieces) (stands : piece.Stands last after)
    (parts : text = piece.source ++ after) :
    ∃ rest, pieces = piece :: rest ∧ Cut piece.source.getLast? after rest := by
  cases h with
  | nil => exact absurd (List.append_eq_nil_iff.mp parts.symm).1 (source_ne_nil piece)
  | cons stands' cut =>
    obtain ⟨rfl, rfl⟩ := stands'.unique stands parts
    exact ⟨_, rfl, cut⟩

theorem Cut.unique {others : List Piece} (h : Cut last text pieces) (h' : Cut last text others) :
    others = pieces := by
  induction h generalizing others with
  | nil =>
    generalize empty : [] = text at h'
    cases h' with
    | nil => rfl
    | cons => exact absurd (List.append_eq_nil_iff.mp empty.symm).1 (source_ne_nil _)
  | cons stands _ ih =>
    obtain ⟨rest, rfl, cut⟩ := h'.uncons stands rfl
    rw [ih cut]

section

variable {α : Type} {f g : α → List Char} {items : List α}

theorem flatMap_eq_flatMap_iff (shorter : ∀ a, (f a).length ≤ (g a).length) :
    items.flatMap f = items.flatMap g ↔ ∀ a ∈ items, f a = g a := by
  have total (items : List α) : (items.flatMap f).length ≤ (items.flatMap g).length := by
    induction items with
    | nil => exact Nat.le_refl _
    | cons a items ih =>
      simp only [List.flatMap_cons, List.length_append]
      have := shorter a
      omega
  refine ⟨fun same => ?_, List.flatMap_congr⟩
  induction items with
  | nil => simp
  | cons a items ih =>
    rw [List.flatMap_cons, List.flatMap_cons] at same
    have lengths := congrArg List.length same
    rw [List.length_append, List.length_append] at lengths
    have := shorter a
    have := total items
    obtain ⟨first, rest⟩ := List.append_inj same (by omega)
    exact List.forall_mem_cons.mpr ⟨first, ih rest⟩

end

theorem flatMap_spelled_eq_meant_iff :
    pieces.flatMap Piece.spelled = pieces.flatMap Piece.meant ↔ .stem ∉ pieces := by
  have one (piece : Piece) : piece.spelled = piece.meant ↔ piece ≠ .stem := by
    cases piece <;> simp [Piece.spelled, Piece.meant, thisState]
  have shorter (piece : Piece) : piece.spelled.length ≤ piece.meant.length := by
    cases piece <;> simp [Piece.spelled, Piece.meant, thisState]
  rw [flatMap_eq_flatMap_iff shorter]
  simp only [one]
  exact ⟨fun h member => h _ member rfl, fun h piece member same => h (same ▸ member)⟩

def Piece.isRewritten : Piece → Bool
  | strictEqual | strictUnequal | path | stem => true
  | literal .. | other _ => false

theorem flatMap_spelled_eq_source_iff :
    pieces.flatMap Piece.spelled = pieces.flatMap Piece.source ↔
      ∀ piece ∈ pieces, ¬piece.isRewritten := by
  have one (piece : Piece) : piece.spelled = piece.source ↔ ¬piece.isRewritten := by
    cases piece <;> simp [Piece.spelled, Piece.source, Piece.isRewritten, thisState]
  have shorter (piece : Piece) : piece.spelled.length ≤ piece.source.length := by
    cases piece <;> simp [Piece.spelled, Piece.source, thisState]
  rw [flatMap_eq_flatMap_iff shorter]
  simp only [one]

theorem Cut.source_eq (h : Cut last text pieces) : pieces.flatMap Piece.source = text := by
  induction h with
  | nil => rfl
  | cons _ _ ih => rw [List.flatMap_cons, ih]

-- What the loop keeps: the text written, the quote of the literal that is open and the rest of the
-- source.
structure Loop where
  written : List Char
  quote : Option Char
  rest : List Char

namespace Loop

def turn : Loop → Loop
  | ⟨written, quote, []⟩ => ⟨written, quote, []⟩
  | ⟨written, some quote, c :: rest⟩ =>
    if c = '\\' then ⟨written ++ (c :: rest).take 2, some quote, (c :: rest).drop 2⟩
    else ⟨written ++ [c], if c = quote then none else some quote, rest⟩
  | ⟨written, none, c :: rest⟩ =>
    if isQuote c then ⟨written ++ [c], some c, rest⟩
    else if Piece.strictEqual.source <+: c :: rest ∨ Piece.strictUnequal.source <+: c :: rest then
      ⟨written ++ [c, '='], none, rest.drop 2⟩
    else if thisState <+: c :: rest ∧ ¬written.getLast?.any continuesPath then
      ⟨written, none, rest.drop 4⟩
    else ⟨written ++ [c], none, rest⟩

def start (source : String) : Loop :=
  ⟨[], none, source.toList⟩

def outcome (loop : Loop) : List Char :=
  loop.written ++ normalizeFrom loop.quote loop.written.getLast? loop.rest

variable {loop : Loop} {source : String}

theorem outcome_turn_inside (written : List Char) (quote : Char) (rest : List Char) :
    (turn ⟨written, some quote, rest⟩).outcome = outcome ⟨written, some quote, rest⟩ := by
  cases rest with
  | nil => rfl
  | cons c rest =>
    rw [turn]
    split
    case isTrue backslash =>
      subst backslash
      cases rest with
      | nil => simp [outcome, normalizeFrom_openBody .backslash]
      | cons c rest => simp [outcome, normalizeFrom_escaped]
    case isFalse plain => simp [outcome, normalizeFrom_inside plain]

theorem outcome_turn_outside (written : List Char) (rest : List Char) :
    (turn ⟨written, none, rest⟩).outcome = outcome ⟨written, none, rest⟩ := by
  cases rest with
  | nil => rfl
  | cons c rest =>
    rw [turn]
    split_ifs with quoted strict path
    · simp [outcome, normalizeFrom_quote quoted]
    · rcases strict with ⟨after, parts⟩ | ⟨after, parts⟩
      · rw [outcome, outcome, ← parts, normalizeFrom_strictEqual]
        obtain ⟨rfl, rfl⟩ := List.cons_eq_cons.mp parts
        simp [Piece.spelled]
      · rw [outcome, outcome, ← parts, normalizeFrom_strictUnequal]
        obtain ⟨rfl, rfl⟩ := List.cons_eq_cons.mp parts
        simp [Piece.spelled]
    · obtain ⟨⟨after, parts⟩, begins⟩ := path
      rw [outcome, outcome, ← parts, normalizeFrom_thisState, if_neg begins]
      obtain ⟨rfl, rfl⟩ := List.cons_eq_cons.mp parts
      rfl
    · rw [not_or] at strict
      have stands : (Piece.other c).Stands written.getLast? rest :=
        ⟨by simpa using quoted, strict.1, strict.2, fun begins here =>
          path ⟨here, begins_iff.mp begins⟩⟩
      simp [outcome, normalizeFrom_other stands]

theorem outcome_turn (loop : Loop) : loop.turn.outcome = loop.outcome :=
  match loop with
  | ⟨written, some quote, rest⟩ => outcome_turn_inside written quote rest
  | ⟨written, none, rest⟩ => outcome_turn_outside written rest

theorem length_turn (loop : Loop) : loop.turn.rest.length ≤ loop.rest.length - 1 := by
  obtain ⟨written, quote, rest⟩ := loop
  cases rest with
  | nil => simp [turn]
  | cons c rest =>
    cases quote with
    | none =>
      simp only [turn]
      split_ifs <;> simp
    | some quote =>
      simp only [turn]
      split_ifs <;> simp

theorem outcome_iterate (turns : Nat) (loop : Loop) :
    (turn^[turns] loop).outcome = loop.outcome := by
  induction turns with
  | zero => rfl
  | succ turns ih => rw [Function.iterate_succ_apply', outcome_turn, ih]

theorem length_iterate (turns : Nat) (loop : Loop) :
    (turn^[turns] loop).rest.length ≤ loop.rest.length - turns := by
  induction turns with
  | zero => exact Nat.le_refl _
  | succ turns ih =>
    rw [Function.iterate_succ_apply']
    have := length_turn (turn^[turns] loop)
    omega

theorem iterate_start (source : String) :
    (turn^[source.length] (start source)).rest = [] ∧
      (turn^[source.length] (start source)).written = (normalize source).toList := by
  have ended := length_iterate source.length (start source)
  have outcome := outcome_iterate source.length (start source)
  rw [start, String.length_toList, Nat.sub_self, ← start] at ended
  have none := List.eq_nil_of_length_eq_zero (Nat.le_zero.mp ended)
  refine ⟨none, ?_⟩
  rw [Loop.outcome, none, normalizeFrom_nil, List.append_nil] at outcome
  rw [outcome, normalize, String.toList_ofList]
  rfl

end Loop

end

-- A source falls into pieces in just one way, and normalizing writes each piece in its one
-- spelling, so that a source is kept as it is exactly if none of its pieces has another spelling.
-- Of a path whose name only begins with `state` the front is dropped too, and only such paths are
-- not written as they are meant. The loop over the source ends.
theorem normalize_pieces (source : String) :
    ∃ pieces : List Piece,
      (∀ others, Cut none source.toList others ↔ others = pieces) ∧
      pieces.flatMap Piece.source = source.toList ∧
      (normalize source).toList = pieces.flatMap Piece.spelled ∧
      ((normalize source).toList = pieces.flatMap Piece.meant ↔ .stem ∉ pieces) ∧
      (normalize source = source ↔ ∀ piece ∈ pieces, ¬piece.isRewritten) ∧
      (Loop.turn^[source.length] (.start source)).rest = [] ∧
      (Loop.turn^[source.length] (.start source)).written = (normalize source).toList := by
  obtain ⟨pieces, cut⟩ := exists_cut none source.toList
  have written : (normalize source).toList = pieces.flatMap Piece.spelled := by
    rw [normalize, String.toList_ofList, cut.normalizeFrom_eq]
  refine ⟨pieces, fun others => ⟨cut.unique, ?_⟩, cut.source_eq, written, ?_, ?_,
    Loop.iterate_start source⟩
  · rintro rfl
    exact cut
  · rw [written, flatMap_spelled_eq_meant_iff]
  · rw [← String.toList_inj, written, ← flatMap_spelled_eq_source_iff, cut.source_eq]

theorem normalize_stateful :
    normalize "this.stateful == 1" = "stateful == 1" ∧
      ∃ pieces, Cut none "this.stateful == 1".toList pieces ∧
        (normalize "this.stateful == 1").toList ≠ pieces.flatMap Piece.meant := by
  obtain ⟨pieces, cut⟩ := exists_cut none "this.stateful == 1".toList
  have stem : Piece.stem.Stands none "ful == 1".toList := ⟨nofun, 'f', rfl, by decide⟩
  obtain ⟨rest, rfl, -⟩ := cut.uncons stem (by decide)
  refine ⟨by decide, _, cut, ?_⟩
  rw [normalize, String.toList_ofList, cut.normalizeFrom_eq, Ne, flatMap_spelled_eq_meant_iff]
  simp

end DurableWorkflow.Condition
