import Mathlib.Algebra.Order.BigOperators.Group.Finset
import ZeroTrustProxy.Concurrent.Alphabet
import ZeroTrustProxy.Concurrent.Script

/-!
What a program does at most once.

`p.Once P` says that when `p` comes to a call of the kind `P`, it has not made one before.
The parts of a program that make no such call at all are most of it, and drop out by
`Uses`; what is left is to follow the one part that does. Over a run, calls that each
request makes at most once are no more than the requests.
-/

namespace Concurrent

variable {I : Interface} {ε ε' α β : Type} {P : I.Cmd → Prop}

namespace Program

/-- `p` makes at most one call of the kind `P`. -/
def Once (P : I.Cmd → Prop) (p : Program I ε α) : Prop :=
  ∀ h c, p.Calls h c → P c → ∀ e ∈ h, ¬ P (I.command e)

theorem Uses.once {p : Program I ε α} (hp : p.Uses fun c => ¬ P c) : p.Once P :=
  fun h c hcalls hc => absurd hc (hp h c hcalls)

/-- After a call of the kind there is none. -/
theorem once_call {c : I.Cmd} {next : I.Resp c → Program I ε α}
    (hnext : ∀ x, (next x).Uses fun c => ¬ P c) : (Program.call c next).Once P := by
  rintro h c' (⟨rfl, rfl⟩ | ⟨x, h', rfl, hrest⟩) hc
  · simp
  · exact absurd hc (hnext x h' c' hrest)

/-- The first of two programs makes no such call. -/
theorem once_bind {p : Program I ε α} {f : α → Program I ε β} (hp : p.Uses fun c => ¬ P c)
    (hf : ∀ a, (f a).Once P) : (p >>= f).Once P := by
  intro h c hcalls hc e he
  obtain hfirst | ⟨a, h₁, h₂, rfl, hend, hlast⟩ := calls_bind.mp hcalls
  · exact absurd hc (hp h c hfirst)
  · obtain he | he := List.mem_append.mp he
    · exact hf a h₂ c hlast hc e he
    · exact hp.ends hend e he

/-- The second of two programs makes no such call. -/
theorem once_bind_left {p : Program I ε α} {f : α → Program I ε β} (hp : p.Once P)
    (hf : ∀ a, (f a).Uses fun c => ¬ P c) : (p >>= f).Once P := by
  intro h c hcalls hc
  obtain hfirst | ⟨a, h₁, h₂, rfl, -, hlast⟩ := calls_bind.mp hcalls
  · exact hp h c hfirst hc
  · exact absurd hc (hf a h₂ c hlast)

theorem once_attempt {p : Program I ε α} (hp : p.Once P) :
    (p.attempt : Program I ε' (Except ε α)).Once P :=
  fun h c hcalls => hp h c (calls_attempt.mp hcalls)

theorem once_ite {b : Prop} [Decidable b] {p q : Program I ε α} (hp : p.Once P) (hq : q.Once P) :
    (if b then p else q).Once P := by
  split
  · exact hp
  · exact hq

end Program

/-! ### Runs -/

/-- In a list in which nothing of a kind comes after an element of the kind, there is at
most one. -/
theorem countP_le_one {α : Type} {p : α → Bool} {l : List α}
    (hl : ∀ a l', a :: l' <:+ l → p a = true → ∀ b ∈ l', p b = false) : l.countP p ≤ 1 := by
  induction l with
  | nil => simp
  | cons a l ih =>
      have hrest := ih fun b l' hsub => hl b l' (hsub.trans (List.suffix_cons a l))
      cases ha : p a with
      | false => simpa [List.countP_cons, ha] using hrest
      | true =>
          have hnone : l.countP p = 0 :=
            List.countP_eq_zero.mpr fun b hb => by simp [hl a l List.suffix_rfl ha b hb]
          simp [ha, hnone]

variable {S : System I} {A : Trace S → Entry S → Prop} {w : S.World} {tr : Trace S}
  {p : I.Event → Bool} {t : ℕ}

/-- When a thread makes a call of the kind, it has made none. -/
theorem Run.first (hS : ∀ q, (S.program q).Once P) (h : Run A w tr) {e : I.Event}
    {l : List I.Event} (hl : e :: l <:+ own t tr) (he : P (I.command e)) :
    ∀ e' ∈ l, ¬ P (I.command e') := by
  obtain ⟨_, _, _, _, q, -, -, -, -, hcalls, -⟩ := h.licensed (calls_contract S) hl
  exact hS q l _ hcalls he

/-- A thread makes at most one call of the kind. -/
theorem Run.own_once (hS : ∀ q, (S.program q).Once P) (hp : ∀ e, p e = true → P (I.command e))
    (h : Run A w tr) (t : ℕ) : (own t tr).countP p ≤ 1 := by
  refine countP_le_one fun e l hl he e' he' => ?_
  have hno := h.first hS hl (hp e he) e' he'
  exact Bool.eq_false_iff.mpr fun hkind => hno (hp e' hkind)

/-- Two calls of the kind that a thread has made are the same call. -/
theorem Run.own_unique (hS : ∀ q, (S.program q).Once P) (h : Run A w tr) {e e' : I.Event}
    {l l' : List I.Event} (hl : e :: l <:+ own t tr) (hl' : e' :: l' <:+ own t tr)
    (he : P (I.command e)) (he' : P (I.command e')) : e = e' ∧ l = l' := by
  obtain hsub | hsub := List.suffix_or_suffix_of_suffix hl hl'
  · obtain heq | hearlier := List.suffix_cons_iff.mp hsub
    · exact List.cons.inj heq
    · exact absurd he (h.first hS hl' he' e (hearlier.subset List.mem_cons_self))
  · obtain heq | hearlier := List.suffix_cons_iff.mp hsub
    · obtain ⟨rfl, rfl⟩ := List.cons.inj heq
      exact ⟨rfl, rfl⟩
    · exact absurd he' (h.first hS hl he e' (hearlier.subset List.mem_cons_self))

/-- The threads whose requests are of a kind. -/
def askers (f : S.Req → Bool) (tr : Trace S) : Finset ℕ :=
  ((tr.filter fun y => y.item.isStart f).map (·.tid)).toFinset

theorem Started.mem_askers {f : S.Req → Bool} {q : S.Req} (hq : Started t q tr)
    (hf : f q = true) : t ∈ askers f tr := by
  obtain ⟨w₁, hmem⟩ := hq
  exact List.mem_toFinset.mpr
    (List.mem_map.mpr ⟨⟨t, w₁, .start q⟩, List.mem_filter.mpr ⟨hmem, hf⟩, rfl⟩)

theorem card_askers_le {f : S.Req → Bool} :
    (askers f tr).card ≤ tr.countP fun y => y.item.isStart f := by
  rw [List.countP_eq_length_filter, ← List.length_map (f := (·.tid))]
  exact List.toFinset_card_le _

/-- **Calls that a request makes at most once are no more than the requests that make
them.** -/
theorem Run.countP_le (hS : ∀ q, (S.program q).Once P) (hp : ∀ e, p e = true → P (I.command e))
    {f : S.Req → Bool} (hf : ∀ q h c, (S.program q).Calls h c → P c → f q = true)
    (h : Run A w tr) :
    tr.countP (fun y => y.item.isEvent p) ≤ tr.countP fun y => y.item.isStart f := by
  have hthreads : ∀ y ∈ tr, y.item.isEvent p = true → y.tid ∈ askers f tr := by
    rintro ⟨t, w₀, item⟩ hy hitem
    cases item with
    | act e =>
        obtain ⟨l, hl⟩ := suffix_of_mem (mem_own.mpr ⟨w₀, hy⟩)
        obtain ⟨post, pre, w₂, _, q, rfl, -, -, hq, hcalls, -⟩ :=
          h.licensed (calls_contract S) hl
        have hlater := hq.mono ((List.suffix_cons (⟨t, w₂, .act e⟩ : Entry S) pre).trans
          (List.suffix_append post _)).subset
        exact hlater.mem_askers (hf q l _ hcalls (hp e hitem))
    | start q => simp [Item.isEvent] at hitem
    | done o => simp [Item.isEvent] at hitem
  calc tr.countP (fun y => y.item.isEvent p)
      = ∑ t ∈ askers f tr, (own t tr).countP p := countP_own hthreads
    _ ≤ ∑ _t ∈ askers f tr, 1 := Finset.sum_le_sum fun t _ => h.own_once hS hp t
    _ = (askers f tr).card := (Finset.card_eq_sum_ones _).symm
    _ ≤ tr.countP fun y => y.item.isStart f := card_askers_le

end Concurrent
