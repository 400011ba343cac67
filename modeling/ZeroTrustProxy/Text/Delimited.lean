import Mathlib.Data.List.DropRight

/-!
Texts that are cut at their delimiters.

A part of a text ends where the first character comes that may not stand in it.
A part that was put in front of another is read back when all of its characters
may stand in it and the other one does not go on with such a character.
-/

namespace Delimited

variable {α : Type*} {p : α → Bool} {l l' : List α}

/-- `l` does not begin with a character that satisfies `p`. -/
def Stops (p : α → Bool) (l : List α) : Prop := ∀ c, l.head? = some c → p c = false

theorem stops_nil : Stops p [] := by
  intro c hc
  simp at hc

theorem stops_cons {c : α} (hc : p c = false) : Stops p (c :: l) := by
  intro c' hc'
  obtain rfl : c = c' := by simpa using hc'
  exact hc

theorem Stops.append (hl : Stops p l) (hl' : Stops p l') : Stops p (l ++ l') := by
  cases l with
  | nil => exact hl'
  | cons c l => exact stops_cons (hl c rfl)

theorem takeWhile_append (hin : ∀ c ∈ l, p c = true) (hstop : Stops p l') :
    (l ++ l').takeWhile p = l := by
  rw [List.takeWhile_append_of_pos hin]
  cases l' with
  | nil => rw [List.takeWhile_nil, List.append_nil]
  | cons c l' => rw [List.takeWhile_cons_of_neg (by simp [hstop c rfl]), List.append_nil]

theorem dropWhile_append (hin : ∀ c ∈ l, p c = true) (hstop : Stops p l') :
    (l ++ l').dropWhile p = l' := by
  rw [List.dropWhile_append_of_pos hin]
  cases l' with
  | nil => rfl
  | cons c l' => rw [List.dropWhile_cons_of_neg (by simp [hstop c rfl])]

theorem takeWhile_all (hin : ∀ c ∈ l, p c = true) : l.takeWhile p = l := by
  have htake := takeWhile_append hin stops_nil
  rwa [List.append_nil] at htake

/-- A part that ends in a character to be kept is not shortened. -/
theorem rdropWhile_append {c : α} (hlast : l.getLast? = some c) (hc : p c = false) :
    (l ++ l').rdropWhile p = l ++ l'.rdropWhile p := by
  induction l' using List.reverseRecOn with
  | nil =>
      obtain ⟨front, rfl⟩ := List.getLast?_eq_some_iff.mp hlast
      rw [List.append_nil, List.rdropWhile_nil, List.append_nil,
        List.rdropWhile_concat_neg _ _ _ (by simp [hc])]
  | append_singleton l' c' ih =>
      rw [← List.append_assoc, List.rdropWhile_concat, List.rdropWhile_concat]
      split
      · exact ih
      · rw [List.append_assoc]

end Delimited
