import Mathlib.Data.List.AList

/-!
A key-value store whose keys may carry a deadline and vanish when it comes.

The store is Mathlib's association list, so reading, writing and deleting are
its `lookup`, `insert` and `erase`, with their lemmas. What is added is time:
`advance t` drops every cell whose deadline is not after `t`.
-/

namespace Concurrent

structure Cell (V : Type) where
  value : V
  /-- The instant from which the key is gone; `none` for a key without one. -/
  deadline : Option Int
  deriving DecidableEq

def Cell.alive {V : Type} (t : Int) (c : Cell V) : Bool :=
  match c.deadline with
  | none => true
  | some d => decide (t < d)

/-- What is there at some time has been there before. -/
theorem Cell.alive_of_le {V : Type} {t t' : Int} {c : Cell V} (h : c.alive t' = true)
    (hle : t ≤ t') : c.alive t = true := by
  unfold Cell.alive at h ⊢
  cases hdeadline : c.deadline with
  | none => rfl
  | some d =>
      simp only [hdeadline, decide_eq_true_eq] at h ⊢
      omega

abbrev ExpiringStore (K V : Type) := AList (fun _ : K => Cell V)

namespace ExpiringStore

variable {K V : Type} [DecidableEq K]

def advance (t : Int) (s : ExpiringStore K V) : ExpiringStore K V where
  entries := s.entries.filter fun x => x.2.alive t
  nodupKeys := s.nodupKeys.sublist List.filter_sublist

theorem dlookup_filter_alive (t : Int) (k : K) (l : List (Σ _ : K, Cell V))
    (hl : l.NodupKeys) :
    (l.filter fun x => x.2.alive t).dlookup k = (l.dlookup k).filter (Cell.alive t) := by
  induction l with
  | nil => rfl
  | cons x l ih =>
      obtain ⟨k', c⟩ := x
      have hnd := List.nodupKeys_cons.mp hl
      by_cases hk : k = k'
      · subst hk
        cases halive : c.alive t with
        | true => simp [halive, Option.filter]
        | false =>
            have hnone : (l.dlookup k) = none := List.dlookup_eq_none.mpr hnd.1
            simp [halive, Option.filter, ih hnd.2, hnone]
      · have hskip (l' : List (Σ _ : K, Cell V)) :
            List.dlookup k (⟨k', c⟩ :: l') = l'.dlookup k := List.dlookup_cons_ne l' ⟨k', c⟩ hk
        cases halive : c.alive t with
        | true => simp [halive, hskip, ih hnd.2]
        | false => simp [halive, hskip, ih hnd.2]

/-- What is found after time has passed: what was there, unless its deadline
has come. -/
theorem lookup_advance (t : Int) (k : K) (s : ExpiringStore K V) :
    (s.advance t).lookup k = (s.lookup k).filter (Cell.alive t) :=
  dlookup_filter_alive t k s.entries s.nodupKeys

theorem lookup_advance_eq_some {t : Int} {k : K} {s : ExpiringStore K V} {c : Cell V} :
    (s.advance t).lookup k = some c ↔ s.lookup k = some c ∧ c.alive t = true := by
  rw [lookup_advance, Option.filter_eq_some_iff]

end ExpiringStore

end Concurrent
