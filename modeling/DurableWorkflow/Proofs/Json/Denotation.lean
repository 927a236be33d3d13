import DurableWorkflow.Proofs.Json.Text
import DurableWorkflow.Proofs.Run.Document

namespace DurableWorkflow

namespace Json

variable {depth : Nat} {json : Json} {n : Number}

-- What a text can denote that nests so many containers.
def Nested : (depth : Nat) → Json → Prop
  | _, .null | _, .bool _ | _, .string _ => True
  | _, .number n                         => n.Fits
  | 0, .array _ | 0, .object _           => False
  | depth + 1, .array items              => ∀ item ∈ items, Nested depth item
  | depth + 1, .object members           =>
    Entries.Ascending members ∧ ∀ member ∈ members, Nested depth member.2

theorem nested_number : Nested depth (.number n) ↔ n.Fits := by
  cases depth <;> rfl

theorem nested_string {text : String} : Nested depth (.string text) := by
  cases depth <;> trivial

theorem nested_ofMembers {members : List (String × Json)}
    (h : ∀ member ∈ members, Nested depth member.2) : Nested (depth + 1) (ofMembers members) :=
  ⟨Entries.Ascending.ofPairs members, fun _ hm =>
    have found : (Dict.ofPairs members).get? _ = some _ := Dict.mem_entries_iff.mp hm
    h _ (Dict.mem_of_get?_ofPairs found)⟩

theorem Nested.ascending {members : List (String × Json)} (h : Nested depth (.object members)) :
    Entries.Ascending members := by
  cases depth with
  | zero => exact h.elim
  | succ depth => exact h.1

theorem Nested.member {members : List (String × Json)} (h : Nested depth (.object members)) :
    ∀ member ∈ members, Nested (depth - 1) member.2 := by
  cases depth with
  | zero => exact h.elim
  | succ depth => exact h.2

theorem mem_numbersOfItems {items : List Json} :
    n ∈ numbersOfItems items ↔ ∃ item ∈ items, n ∈ item.numbers := by
  induction items with
  | nil => simp [numbersOfItems]
  | cons item items ih => simp [numbersOfItems, ih]

theorem mem_numbersOfMembers {members : List (String × Json)} :
    n ∈ numbersOfMembers members ↔ ∃ member ∈ members, n ∈ member.2.numbers := by
  induction members with
  | nil => simp [numbersOfMembers]
  | cons member members ih => simp [numbersOfMembers, ih]

theorem Nested.fits (h : Nested depth json) : ∀ n ∈ json.numbers, n.Fits := by
  induction depth generalizing json with
  | zero =>
    cases json with
    | number m => simpa [numbers] using nested_number.mp h
    | array | object => exact h.elim
    | null | bool | string => simp [numbers]
  | succ depth ih =>
    cases json with
    | number m => simpa [numbers] using nested_number.mp h
    | array items =>
      intro n hn
      obtain ⟨item, hm, hn⟩ := mem_numbersOfItems.mp hn
      exact ih (h item hm) n hn
    | object members =>
      intro n hn
      obtain ⟨member, hm, hn⟩ := mem_numbersOfMembers.mp hn
      exact ih (h.2 member hm) n hn
    | null | bool | string => simp [numbers]

namespace Raw

theorem itemsToJson?_eq (items : List Raw) :
    itemsToJson? depth items = items.mapM (toJson? depth) := by
  induction items with
  | nil => simp [itemsToJson?]
  | cons item items ih => simp [itemsToJson?, ih]

theorem rawItems_eq (items : List Json) : rawItems items = items.map raw := by
  induction items with
  | nil => rfl
  | cons item items ih => rw [rawItems, ih]; rfl

theorem rawMembers_eq (members : List (String × Json)) :
    rawMembers members = members.map fun member => (some member.1, member.2.raw) := by
  induction members with
  | nil => rfl
  | cons member members ih => rw [rawMembers, ih]; rfl

def memberToJson? (depth : Nat) (member : Option String × Raw) : Option (String × Json) := do
  let key ← member.1
  let json ← toJson? depth member.2
  pure (key, json)

theorem membersToJson?_eq (members : List (Option String × Raw)) :
    membersToJson? depth members = members.mapM (memberToJson? depth) := by
  induction members with
  | nil => simp [membersToJson?]
  | cons member members ih =>
    simp [membersToJson?, memberToJson?, ih, Option.bind_assoc]

theorem membersToJson?_rawMembers {members : List (String × Json)}
    (h : ∀ member ∈ members, toJson? depth member.2.raw = some member.2) :
    membersToJson? depth (rawMembers members) = some members := by
  rw [membersToJson?_eq, rawMembers_eq]
  exact mapM_map_eq_some_of_mem fun member hm => by simp [memberToJson?, h member hm]

end Raw

theorem ofMembers_eq {members : List (String × Json)} (h : Entries.Ascending members) :
    ofMembers members = .object members :=
  congrArg object (congrArg Dict.entries (Dict.ofPairs_entries ⟨members, h⟩))

-- What the text of a value denotes is the value, unless it is nested too deeply.
theorem Nested.toJson?_raw (h : Nested depth json) : Raw.toJson? depth json.raw = some json := by
  induction depth generalizing json with
  | zero =>
    cases json with
    | array | object => exact h.elim
    | null | bool | string | number => rfl
  | succ depth ih =>
    cases json with
    | null | bool | string | number => rfl
    | array items =>
      rw [raw, Raw.toJson?, Raw.itemsToJson?_eq, Raw.rawItems_eq,
        mapM_map_eq_some_of_mem fun item hm => ih (h item hm)]
      rfl
    | object members =>
      rw [raw, Raw.toJson?, Raw.membersToJson?_rawMembers fun member hm => ih (h.2 member hm)]
      exact congrArg some (ofMembers_eq h.1)

namespace Raw

variable {text rest : List Char} {raw : Raw} {fuel : Nat}

inductive Fits : Raw → Prop
  | null : Fits .null
  | bool {value : Bool} : Fits (.bool value)
  | number {value : Option Number} (fits : ∀ n ∈ value, n.Fits) : Fits (.number value)
  | string {value : Option String} : Fits (.string value)
  | array {items : List Raw} (fits : ∀ item ∈ items, Fits item) : Fits (.array items)
  | object {members : List (Option String × Raw)} (fits : ∀ member ∈ members, Fits member.2) :
    Fits (.object members)

theorem absorb_le {significand : Nat} {digits : List Char} (h : significand ≤ Word.maxUnsigned) :
    (absorb significand digits).1 ≤ Word.maxUnsigned := by
  induction digits generalizing significand with
  | nil => exact h
  | cons digit digits ih =>
    rw [absorb]
    split
    case isTrue longer => exact ih longer
    case isFalse       => exact h

theorem numberOf_fits {negative : Bool} {whole : List Char} {fraction : Option (List Char)}
    {exponent : Option Int} : ∀ n ∈ numberOf negative whole fraction exponent, n.Fits := by
  intro n hn
  have bounded : (absorb 0 whole).1 ≤ Word.maxUnsigned := absorb_le (Nat.zero_le _)
  rcases taken : absorb 0 whole with ⟨significand, overflow⟩
  rw [taken] at bounded
  rw [numberOf, taken] at hn
  dsimp only at hn
  split at hn
  case isTrue small =>
    cases hn
    cases negative
    case false => exact .inr ⟨Int.natCast_nonneg _, Int.ofNat_le.mpr bounded⟩
    case true =>
      simp only [Bool.and_eq_true, Bool.not_true, Bool.false_or, decide_eq_true_eq] at small
      exact .inl small.2.2
  case isFalse =>
    obtain ⟨_, _, rfl⟩ := Option.map_eq_some_iff.mp hn
    trivial

theorem lexUnsigned_fits {negative : Bool} (h : lexUnsigned negative text = some (raw, rest)) :
    raw.Fits := by
  obtain ⟨_, _, h⟩ := Option.bind_eq_some_iff.mp h
  obtain ⟨_, _, h⟩ := Option.bind_eq_some_iff.mp h
  obtain ⟨_, _, h⟩ := Option.bind_eq_some_iff.mp h
  cases h
  exact .number numberOf_fits

theorem lexNumber_fits (h : lexNumber text = some (raw, rest)) : raw.Fits := by
  rw [lexNumber.eq_def] at h
  split at h <;> exact lexUnsigned_fits h

structure Fitting (fuel : Nat) : Prop where
  value   : ∀ text raw rest, value fuel text = some (raw, rest) → raw.Fits
  items   : ∀ text list rest, items fuel text = some (list, rest) → ∀ raw ∈ list, raw.Fits
  members : ∀ text list rest, members fuel text = some (list, rest) →
    ∀ member ∈ list, member.2.Fits

namespace Fitting

theorem zero : Fitting 0 :=
  ⟨nofun, nofun, nofun⟩

theorem value_succ (h : Fitting fuel) (text : List Char) (raw : Raw) (rest : List Char)
    (read : Raw.value (fuel + 1) text = some (raw, rest)) : raw.Fits := by
  rw [Raw.value] at read
  split at read
  case h_1 =>
    obtain ⟨_, _, same⟩ := Option.map_eq_some_iff.mp read
    cases same
    exact .string
  case h_2 =>
    split at read
    case h_1 =>
      cases read
      exact .array (List.forall_mem_nil _)
    case h_2 =>
      obtain ⟨_, listed, same⟩ := Option.map_eq_some_iff.mp read
      cases same
      exact .array (h.items _ _ _ listed)
  case h_3 =>
    split at read
    case h_1 =>
      cases read
      exact .object (List.forall_mem_nil _)
    case h_2 =>
      obtain ⟨_, listed, same⟩ := Option.map_eq_some_iff.mp read
      cases same
      exact .object (h.members _ _ _ listed)
  case h_4 =>
    obtain ⟨_, _, same⟩ := Option.map_eq_some_iff.mp read
    cases same
    exact .null
  case h_5 | h_6 =>
    obtain ⟨_, _, same⟩ := Option.map_eq_some_iff.mp read
    cases same
    exact .bool
  case h_7 => exact lexNumber_fits read

theorem items_succ (h : Fitting fuel) (text : List Char) (list : List Raw) (rest : List Char)
    (read : Raw.items (fuel + 1) text = some (list, rest)) : ∀ raw ∈ list, raw.Fits := by
  obtain ⟨⟨first, left⟩, value, read⟩ := Option.bind_eq_some_iff.mp read
  have fits := h.value _ _ _ value
  dsimp only at read
  split at read
  case h_1 =>
    obtain ⟨⟨others, left⟩, items, same⟩ := Option.bind_eq_some_iff.mp read
    cases same
    exact List.forall_mem_cons.mpr ⟨fits, h.items _ _ _ items⟩
  case h_2 =>
    cases read
    exact List.forall_mem_singleton.mpr fits
  case h_3 => cases read

theorem members_succ (h : Fitting fuel) (text : List Char) (list : List (Option String × Raw))
    (rest : List Char) (read : Raw.members (fuel + 1) text = some (list, rest)) :
    ∀ member ∈ list, member.2.Fits := by
  obtain ⟨⟨key, left⟩, _, read⟩ := Option.bind_eq_some_iff.mp read
  dsimp only at read
  split at read
  case h_2 => cases read
  case h_1 =>
    obtain ⟨⟨first, left⟩, value, read⟩ := Option.bind_eq_some_iff.mp read
    have fits := h.value _ _ _ value
    dsimp only at read
    split at read
    case h_1 =>
      obtain ⟨⟨others, left⟩, members, same⟩ := Option.bind_eq_some_iff.mp read
      cases same
      exact List.forall_mem_cons.mpr ⟨fits, h.members _ _ _ members⟩
    case h_2 =>
      cases read
      exact List.forall_mem_singleton.mpr fits
    case h_3 => cases read

end Fitting

-- The core lemma for `fits_of_parse?`, by one step for each function of the reader.
theorem fitting (fuel : Nat) : Fitting fuel := by
  induction fuel with
  | zero => exact .zero
  | succ fuel ih => exact ⟨ih.value_succ, ih.items_succ, ih.members_succ⟩

theorem fits_of_parse? {text : String} (h : parse? text = some raw) : raw.Fits := by
  rw [parse?] at h
  split at h
  case h_1 read =>
    split at h <;> cases h
    exact (fitting _).value _ _ _ read
  case h_2 => cases h

theorem Fits.nested (h : raw.Fits) (denotes : toJson? depth raw = some json) :
    Nested depth json := by
  induction h generalizing depth json with
  | null | bool => cases denotes; cases depth <;> trivial
  | number fits =>
    obtain ⟨n, known, rfl⟩ := Option.map_eq_some_iff.mp denotes
    exact nested_number.mpr (fits n known)
  | string =>
    obtain ⟨_, _, rfl⟩ := Option.map_eq_some_iff.mp denotes
    exact nested_string
  | array fits ih =>
    cases depth with
    | zero => cases denotes
    | succ depth =>
      obtain ⟨items, read, rfl⟩ := Option.map_eq_some_iff.mp denotes
      intro item hm
      rw [itemsToJson?_eq] at read
      obtain ⟨raw, hr, read⟩ := exists_of_mem_mapM read hm
      exact ih raw hr read
  | object fits ih =>
    cases depth with
    | zero => cases denotes
    | succ depth =>
      obtain ⟨members, read, rfl⟩ := Option.map_eq_some_iff.mp denotes
      refine nested_ofMembers fun member hm => ?_
      rw [membersToJson?_eq] at read
      obtain ⟨named, hr, read⟩ := exists_of_mem_mapM read hm
      obtain ⟨key, _, read⟩ := Option.bind_eq_some_iff.mp read
      obtain ⟨json, value, same⟩ := Option.bind_eq_some_iff.mp read
      cases same
      exact ih named hr value

end Raw

end Json

end DurableWorkflow
