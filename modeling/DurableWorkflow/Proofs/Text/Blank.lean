import DurableWorkflow.Text.Blank
import Mathlib.Data.List.TakeWhile

namespace DurableWorkflow.Text

variable {text lead trail : List Char}

def Blank (text : List Char) : Prop :=
  ∀ c ∈ text, isBlank c

theorem trimLeft_append (blank : Blank lead) : trimLeft (lead ++ text) = trimLeft text :=
  List.dropWhile_append_of_pos blank

theorem trimRight_append (blank : Blank trail) : trimRight (text ++ trail) = trimRight text := by
  have blank : ∀ c ∈ trail.reverse, isBlank c := fun c hc => blank c (List.mem_reverse.mp hc)
  rw [trimRight, List.reverse_append, List.dropWhile_append_of_pos blank, trimRight]

theorem exists_trimLeft (text : List Char) : ∃ lead, Blank lead ∧ text = lead ++ trimLeft text :=
  ⟨text.takeWhile isBlank, fun _ => List.mem_takeWhile_imp, List.takeWhile_append_dropWhile.symm⟩

theorem exists_trimRight (text : List Char) :
    ∃ trail, Blank trail ∧ text = trimRight text ++ trail := by
  obtain ⟨lead, blank, parts⟩ := exists_trimLeft text.reverse
  refine ⟨lead.reverse, fun c hc => blank c (by simpa using hc), ?_⟩
  rw [trimRight, ← List.reverse_append]
  exact List.reverse_eq_iff.mp parts

theorem exists_trim (text : List Char) :
    ∃ lead trail, Blank lead ∧ Blank trail ∧ text = lead ++ trim text ++ trail := by
  obtain ⟨lead, blankLead, left⟩ := exists_trimLeft text
  obtain ⟨trail, blankTrail, right⟩ := exists_trimRight (trimLeft text)
  refine ⟨lead, trail, blankLead, blankTrail, ?_⟩
  rw [trim, List.append_assoc, ← right]
  exact left

theorem trimLeft_eq_self (first : ∃ c ∈ text.head?, isBlank c = false) : trimLeft text = text := by
  obtain ⟨c, head, solid⟩ := first
  obtain ⟨rest, rfl⟩ := List.head?_eq_some_iff.mp head
  rw [trimLeft, List.dropWhile_cons_of_neg (by simp [solid])]

theorem trimRight_eq_self (last : ∃ c ∈ text.getLast?, isBlank c = false) :
    trimRight text = text := by
  have : trimLeft text.reverse = text.reverse :=
    trimLeft_eq_self (by rwa [List.head?_reverse])
  rw [trimRight, ← trimLeft, this, List.reverse_reverse]

theorem trim_append (blankLead : Blank lead) (blankTrail : Blank trail)
    (first : ∃ c ∈ text.head?, isBlank c = false) (last : ∃ c ∈ text.getLast?, isBlank c = false) :
    trim (lead ++ text ++ trail) = text := by
  have kept : ∃ c ∈ (text ++ trail).head?, isBlank c = false := by
    obtain ⟨c, head, solid⟩ := first
    exact ⟨c, by rw [List.head?_append, Option.mem_def.mp head, Option.some_or]; rfl, solid⟩
  rw [trim, List.append_assoc, trimLeft_append blankLead, trimLeft_eq_self kept,
    trimRight_append blankTrail, trimRight_eq_self last]

theorem span_append {kind : Char → Bool} {rest : List Char} (chars : ∀ c ∈ text, kind c)
    (after : ∀ c ∈ rest.head?, kind c = false) :
    (text ++ rest).takeWhile kind = text ∧ (text ++ rest).dropWhile kind = rest := by
  rw [List.takeWhile_append_of_pos chars, List.dropWhile_append_of_pos chars]
  cases rest with
  | nil => simp
  | cons c rest => simp [after c rfl]

section

variable {c : Char}

theorem isAlpha_iff :
    c.isAlpha ↔ 65 ≤ c.toNat ∧ c.toNat ≤ 90 ∨ 97 ≤ c.toNat ∧ c.toNat ≤ 122 := by
  have spans : c.isAlpha =
      (decide (65 ≤ c.val ∧ c.val ≤ 90) || (decide (97 ≤ c.val) && decide (c.val ≤ 122))) := rfl
  simp [spans, UInt32.le_iff_toNat_le]

theorem isBlank_of_isAlpha (h : c.isAlpha) : isBlank c = false := by
  rw [isAlpha_iff] at h
  simp [isBlank]
  omega

end

end DurableWorkflow.Text
