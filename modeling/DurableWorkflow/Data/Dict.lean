namespace DurableWorkflow

universe u v

namespace Entries

variable {α : Type u} {β : Type v}

def Ascending (entries : List (String × α)) : Prop :=
  entries.Pairwise (·.1 < ·.1)

def find? (entries : List (String × α)) (key : String) : Option α :=
  (entries.find? (·.1 = key)).map (·.2)

def insert (key : String) (value : α) : List (String × α) → List (String × α)
  | [] => [(key, value)]
  | (k, v) :: rest =>
    if key = k then (key, value) :: rest
    else if key < k then (key, value) :: (k, v) :: rest
    else (k, v) :: insert key value rest

def erase (key : String) (entries : List (String × α)) : List (String × α) :=
  entries.filter (·.1 ≠ key)

-- Binds the pairs one after another; of two pairs with one key the later wins.
def ofPairs (pairs : List (String × α)) : List (String × α) :=
  pairs.foldl (fun entries pair => insert pair.1 pair.2 entries) []

@[simp]
theorem find?_nil {key : String} : find? ([] : List (String × α)) key = none := rfl

theorem find?_cons {k key : String} {v : α} {rest : List (String × α)} :
    find? ((k, v) :: rest) key = if k = key then some v else find? rest key := by
  by_cases h : k = key <;> simp [find?, h]

theorem find?_insert_self {key : String} {value : α} (entries : List (String × α)) :
    find? (insert key value entries) key = some value := by
  induction entries with
  | nil => simp [insert, find?_cons]
  | cons entry rest ih =>
    obtain ⟨k, v⟩ := entry
    by_cases hk : key = k
    · simp [insert, hk, find?_cons]
    · by_cases hlt : key < k
      · simp [insert, hk, hlt, find?_cons]
      · simp [insert, hk, hlt, find?_cons, ih, Ne.symm hk]

theorem find?_insert_of_ne {key other : String} {value : α} (h : key ≠ other)
    (entries : List (String × α)) :
    find? (insert key value entries) other = find? entries other := by
  induction entries with
  | nil => simp [insert, find?_cons, h]
  | cons entry rest ih =>
    obtain ⟨k, v⟩ := entry
    by_cases hk : key = k
    · subst hk
      simp [insert, find?_cons, h]
    · by_cases hlt : key < k
      · simp [insert, hk, hlt, find?_cons, h]
      · rw [insert, if_neg hk, if_neg hlt, find?_cons, find?_cons, ih]

theorem find?_insert {key other : String} {value : α} (entries : List (String × α)) :
    find? (insert key value entries) other =
      if key = other then some value else find? entries other := by
  by_cases h : key = other
  · subst h
    simp [find?_insert_self]
  · simp [h, find?_insert_of_ne h]

theorem find?_erase {key other : String} (entries : List (String × α)) :
    find? (erase key entries) other = if key = other then none else find? entries other := by
  induction entries with
  | nil => simp [erase]
  | cons entry rest ih =>
    obtain ⟨k, v⟩ := entry
    by_cases hk : k = key
    · subst hk
      rw [show erase k ((k, v) :: rest) = erase k rest by simp [erase], ih, find?_cons]
      by_cases ho : k = other <;> simp [ho]
    · rw [show erase key ((k, v) :: rest) = (k, v) :: erase key rest by simp [erase, hk],
        find?_cons, find?_cons, ih]
      by_cases ho : k = other
      · simp [ho ▸ Ne.symm hk, ho]
      · simp [ho]

theorem mem_insert {key : String} {value : α} {entries : List (String × α)} {entry : String × α}
    (h : entry ∈ insert key value entries) : entry = (key, value) ∨ entry ∈ entries := by
  induction entries with
  | nil => simpa [insert] using h
  | cons head rest ih =>
    obtain ⟨k, v⟩ := head
    by_cases hk : key = k
    · subst hk
      simp [insert] at h
      rcases h with h | h <;> simp [h]
    · by_cases hlt : key < k
      · simp [insert, hk, hlt] at h
        rcases h with h | h | h <;> simp [h]
      · simp [insert, hk, hlt] at h
        rcases h with h | h
        · simp [h]
        · rcases ih h with h | h <;> simp [h]

theorem Ascending.insert {key : String} {value : α} {entries : List (String × α)}
    (h : Ascending entries) : Ascending (insert key value entries) := by
  induction entries with
  | nil => simp [Entries.insert, Ascending]
  | cons head rest ih =>
    obtain ⟨k, v⟩ := head
    have hrest := List.pairwise_cons.mp h
    by_cases hk : key = k
    · subst hk
      simpa [Entries.insert, Ascending] using h
    · by_cases hlt : key < k
      · simp only [Entries.insert, hk, hlt, if_true, if_false, Ascending]
        refine List.pairwise_cons.mpr ⟨?_, h⟩
        intro entry hentry
        rcases List.mem_cons.mp hentry with rfl | hmem
        · exact hlt
        · exact String.lt_trans hlt (hrest.1 entry hmem)
      · simp only [Entries.insert, hk, hlt, if_false, Ascending]
        refine List.pairwise_cons.mpr ⟨?_, ih hrest.2⟩
        intro entry hentry
        rcases mem_insert hentry with rfl | hmem
        · have hle : k ≤ key := String.not_lt.mp hlt
          exact Std.lt_of_le_of_ne hle (Ne.symm hk)
        · exact hrest.1 entry hmem

theorem Ascending.erase {key : String} {entries : List (String × α)} (h : Ascending entries) :
    Ascending (erase key entries) :=
  List.Pairwise.filter _ h

theorem Ascending.ofPairs (pairs : List (String × α)) : Ascending (ofPairs pairs) := by
  suffices ∀ entries : List (String × α), Ascending entries → Ascending
      (pairs.foldl (fun entries pair => Entries.insert pair.1 pair.2 entries) entries) from
    this [] List.Pairwise.nil
  induction pairs with
  | nil => exact fun _ h => h
  | cons pair rest ih => exact fun _ h => ih _ h.insert

theorem find?_eq_none_of_lt {key : String} {entries : List (String × α)}
    (h : ∀ entry ∈ entries, key < entry.1) : find? entries key = none := by
  induction entries with
  | nil => rfl
  | cons head rest ih =>
    obtain ⟨k, v⟩ := head
    have hk : k ≠ key := by
      intro heq
      exact String.lt_irrefl key (heq ▸ h (k, v) (by simp))
    simp [find?_cons, hk, ih (fun entry hentry => h entry (by simp [hentry]))]

theorem Ascending.ext {first second : List (String × α)} (hf : Ascending first)
    (hs : Ascending second) (h : ∀ key, find? first key = find? second key) : first = second := by
  induction first generalizing second with
  | nil =>
    cases second with
    | nil => rfl
    | cons head rest =>
      obtain ⟨k, v⟩ := head
      have := h k
      simp [find?_cons] at this
  | cons head rest ih =>
    obtain ⟨k, v⟩ := head
    have hfirst := List.pairwise_cons.mp hf
    cases second with
    | nil =>
      have := h k
      simp [find?_cons] at this
    | cons other tail =>
      obtain ⟨k', v'⟩ := other
      have hsecond := List.pairwise_cons.mp hs
      have hkk : k = k' := by
        have hk := h k
        have hk' := h k'
        by_cases heq : k = k'
        · exact heq
        · exfalso
          simp [find?_cons, Ne.symm heq] at hk
          simp [find?_cons, heq] at hk'
          by_cases hlt : k < k'
          · have : find? tail k = none :=
              find?_eq_none_of_lt fun entry hentry => String.lt_trans hlt (hsecond.1 entry hentry)
            simp [this] at hk
          · have hlt : k' < k := Std.lt_of_le_of_ne (String.not_lt.mp hlt) (Ne.symm heq)
            have : find? rest k' = none :=
              find?_eq_none_of_lt fun entry hentry => String.lt_trans hlt (hfirst.1 entry hentry)
            simp [this] at hk'
      subst hkk
      have hvv : v = v' := by
        have := h k
        simpa [find?_cons] using this
      subst hvv
      congr 1
      refine ih hfirst.2 hsecond.2 fun key => ?_
      have := h key
      by_cases heq : k = key
      · subst heq
        rw [find?_eq_none_of_lt (fun entry hentry => hfirst.1 entry hentry),
          find?_eq_none_of_lt (fun entry hentry => hsecond.1 entry hentry)]
      · simpa [find?_cons, heq] using this

theorem Ascending.nodup {entries : List (String × α)} (h : Ascending entries) :
    (entries.map (·.1)).Nodup :=
  List.pairwise_map.mpr (h.imp String.ne_of_lt)

theorem find?_eq_some_of_mem {entries : List (String × α)} {key : String} {value : α}
    (h : (entries.map (·.1)).Nodup) (hm : (key, value) ∈ entries) :
    find? entries key = some value := by
  induction entries with
  | nil => cases hm
  | cons entry rest ih =>
    obtain ⟨k, v⟩ := entry
    have hn := List.nodup_cons.mp h
    rw [find?_cons]
    rcases List.mem_cons.mp hm with heq | hm
    · cases heq
      exact if_pos rfl
    · have hk : k ≠ key := fun heq => hn.1 (List.mem_map.mpr ⟨_, hm, heq.symm⟩)
      rw [if_neg hk, ih hn.2 hm]

theorem mem_of_find? {entries : List (String × α)} {key : String} {value : α}
    (h : find? entries key = some value) : (key, value) ∈ entries := by
  obtain ⟨⟨k, v⟩, found, rfl⟩ := Option.map_eq_some_iff.mp h
  have hk : k = key := of_decide_eq_true (List.find?_some found :)
  exact hk ▸ List.mem_of_find?_eq_some found

theorem Ascending.filter_eq {key : String} {entries : List (String × α)} (h : Ascending entries) :
    entries.filter (·.1 = key) = (find? entries key).toList.map (key, ·) := by
  induction entries with
  | nil => rfl
  | cons head rest ih =>
    obtain ⟨k, v⟩ := head
    obtain ⟨first, later⟩ := List.pairwise_cons.mp h
    rw [find?_cons]
    by_cases hk : k = key
    · subst hk
      have none : rest.filter (·.1 = k) = [] :=
        List.filter_eq_nil_iff.mpr fun entry hentry hsame =>
          String.ne_of_lt (first entry hentry) (of_decide_eq_true hsame).symm
      simp [none]
    · simpa [hk] using ih later

theorem find?_append {first second : List (String × α)} {key : String} :
    find? (first ++ second) key = (find? first key).or (find? second key) := by
  simp [find?, List.find?_append, Option.map_or]

theorem find?_ofPairs {pairs : List (String × α)} {key : String} :
    find? (ofPairs pairs) key = find? pairs.reverse key := by
  rw [ofPairs, ← List.foldr_reverse]
  induction pairs.reverse with
  | nil => rfl
  | cons pair rest ih => rw [List.foldr_cons, find?_insert, find?_cons, ih]

end Entries

-- A finite map from strings. The entries are in strictly ascending key order, so a dictionary is
-- determined by what it binds: two dictionaries with the same look-ups are the same value. The list
-- operations of the namespace `Entries` also serve JSON objects, whose members are kept in the same
-- order.
structure Dict (α : Type u) where
  entries : List (String × α)
  ascending : Entries.Ascending entries

namespace Dict

variable {α : Type u}

instance [DecidableEq α] : DecidableEq (Dict α) := fun first second =>
  decidable_of_iff (first.entries = second.entries) (by cases first; cases second; simp)

def empty : Dict α := ⟨[], List.Pairwise.nil⟩

instance : Inhabited (Dict α) := ⟨empty⟩

def get? (dict : Dict α) (key : String) : Option α :=
  Entries.find? dict.entries key

def contains (dict : Dict α) (key : String) : Bool :=
  (dict.get? key).isSome

def insert (dict : Dict α) (key : String) (value : α) : Dict α :=
  ⟨Entries.insert key value dict.entries, dict.ascending.insert⟩

def insertIfNew (dict : Dict α) (key : String) (value : α) : Dict α :=
  if dict.contains key then dict else dict.insert key value

def erase (dict : Dict α) (key : String) : Dict α :=
  ⟨Entries.erase key dict.entries, dict.ascending.erase⟩

def ofPairs (pairs : List (String × α)) : Dict α :=
  ⟨Entries.ofPairs pairs, Entries.Ascending.ofPairs pairs⟩

def keys (dict : Dict α) : List String :=
  dict.entries.map (·.1)

def size (dict : Dict α) : Nat :=
  dict.entries.length

def isEmpty (dict : Dict α) : Bool :=
  dict.entries.isEmpty

@[simp]
theorem get?_empty {key : String} : (empty : Dict α).get? key = none := rfl

@[simp, grind =]
theorem get?_insert {dict : Dict α} {key other : String} {value : α} :
    (dict.insert key value).get? other = if key = other then some value else dict.get? other :=
  Entries.find?_insert dict.entries

@[simp, grind =]
theorem get?_erase {dict : Dict α} {key other : String} :
    (dict.erase key).get? other = if key = other then none else dict.get? other :=
  Entries.find?_erase dict.entries

@[grind =]
theorem get?_insertIfNew {dict : Dict α} {key other : String} {value : α} :
    (dict.insertIfNew key value).get? other =
      if key = other then some ((dict.get? key).getD value) else dict.get? other := by
  unfold insertIfNew contains
  cases h : dict.get? key with
  | none => simp
  | some old =>
    by_cases heq : key = other
    · subst heq
      simp [h]
    · simp [heq]

theorem get?_ofPairs_of_mem {pairs : List (String × α)} {key : String} {value : α}
    (h : (pairs.map (·.1)).Nodup) (hm : (key, value) ∈ pairs) :
    (ofPairs pairs).get? key = some value := by
  refine Entries.find?_ofPairs.trans (Entries.find?_eq_some_of_mem ?_ (List.mem_reverse.mpr hm))
  rw [List.map_reverse]
  exact List.pairwise_reverse.mpr (h.imp Ne.symm)

theorem mem_of_get?_ofPairs {pairs : List (String × α)} {key : String} {value : α}
    (h : (ofPairs pairs).get? key = some value) : (key, value) ∈ pairs :=
  List.mem_reverse.mp (Entries.mem_of_find? (Entries.find?_ofPairs.symm.trans h))

theorem nodup_keys (dict : Dict α) : dict.keys.Nodup :=
  dict.ascending.nodup

theorem mem_entries_iff {dict : Dict α} {key : String} {value : α} :
    (key, value) ∈ dict.entries ↔ dict.get? key = some value :=
  ⟨Entries.find?_eq_some_of_mem dict.nodup_keys, Entries.mem_of_find?⟩

theorem ext_get? {first second : Dict α} (h : ∀ key, first.get? key = second.get? key) :
    first = second := by
  cases first with | mk entries ascending
  cases second with | mk entries' ascending'
  have : entries = entries' := ascending.ext ascending' h
  subst this
  rfl

theorem ofPairs_entries (dict : Dict α) : ofPairs dict.entries = dict := by
  refine ext_get? fun key => ?_
  cases bound : dict.get? key
  case some value => exact get?_ofPairs_of_mem dict.nodup_keys (mem_entries_iff.mpr bound)
  case none =>
    cases found : (ofPairs dict.entries).get? key
    case none => rfl
    case some value =>
      have found := Entries.find?_ofPairs.symm.trans found
      have hm := List.mem_reverse.mp (Entries.mem_of_find? found)
      cases bound.symm.trans (mem_entries_iff.mp hm)

end Dict

end DurableWorkflow
