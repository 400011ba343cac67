import Mathlib.Data.List.Basic

/-!
Fields written one after another without separators.

A field may be absent, and then nothing is written for it. The text does not
tell where one field ends and the next begins, so two records can share it. They
are equal when they also cut the text at the same places.
-/

namespace Fields

variable {α : Type*} {fs fs' : List (Option (List α))}

/-- What is written. -/
def spelling (fs : List (Option (List α))) : List α := fs.flatMap (·.getD [])

/-- Which fields are there, and how long they are. -/
def cuts (fs : List (Option (List α))) : List (Option ℕ) := fs.map (·.map List.length)

/-- Two records that cut one text at different places. -/
structure Ambiguous (fs fs' : List (Option (List α))) : Prop where
  spelling : spelling fs = spelling fs'
  cuts : cuts fs ≠ cuts fs'

@[simp] theorem spelling_nil : spelling ([] : List (Option (List α))) = [] := rfl

@[simp] theorem spelling_cons (f : Option (List α)) (fs : List (Option (List α))) :
    spelling (f :: fs) = f.getD [] ++ spelling fs := rfl

@[simp] theorem cuts_nil : cuts ([] : List (Option (List α))) = [] := rfl

@[simp] theorem cuts_cons (f : Option (List α)) (fs : List (Option (List α))) :
    cuts (f :: fs) = f.map List.length :: cuts fs := rfl

/-- Fields of the same length in texts that agree are equal. -/
theorem field_eq {f f' : Option (List α)} {rest rest' : List α}
    (hlength : f.map List.length = f'.map List.length)
    (htext : f.getD [] ++ rest = f'.getD [] ++ rest') : f = f' ∧ rest = rest' := by
  cases f with
  | none =>
      obtain rfl : f' = none := by simpa using hlength.symm
      exact ⟨rfl, htext⟩
  | some s =>
      obtain ⟨s', rfl, hs⟩ : ∃ s', f' = some s' ∧ s'.length = s.length := by
        simpa [Option.map_eq_some_iff] using hlength.symm
      obtain ⟨rfl, hrest⟩ := List.append_inj htext hs.symm
      exact ⟨rfl, hrest⟩

theorem eq_of_spelling (hspelling : spelling fs = spelling fs') (hcuts : cuts fs = cuts fs') :
    fs = fs' := by
  induction fs generalizing fs' with
  | nil =>
      cases fs' with
      | nil => rfl
      | cons f' fs' => simp at hcuts
  | cons f fs ih =>
      cases fs' with
      | nil => simp at hcuts
      | cons f' fs' =>
          obtain ⟨hlength, hlengths⟩ := List.cons.inj hcuts
          obtain ⟨rfl, hrest⟩ := field_eq hlength hspelling
          rw [ih hrest hlengths]

/-- The text determines the fields of two records unless they are ambiguous. -/
theorem determined_iff : (spelling fs = spelling fs' → fs = fs') ↔ ¬ Ambiguous fs fs' := by
  constructor
  · rintro hdetermined ⟨hspelling, hcuts⟩
    exact hcuts (by rw [hdetermined hspelling])
  · intro hclear hspelling
    by_cases hcuts : cuts fs = cuts fs'
    · exact eq_of_spelling hspelling hcuts
    · exact (hclear ⟨hspelling, hcuts⟩).elim

end Fields
