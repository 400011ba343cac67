import Mathlib.Algebra.BigOperators.Group.Finset.Piecewise
import Mathlib.Algebra.Order.Ring.Nat
import ZeroTrustProxy.Concurrent.Progress
import ZeroTrustProxy.Concurrent.Script

/-!
How much a program does.

`p.Affords credit n Q` says that `p`, with `n` calls to spend, never makes one it has not
got: every call takes one, and the event it leaves may bring `credit` more. At a result `a`
there are `Q a` left. The rules are those of a logic of pre- and postconditions, bounds add
up along a sequence, and what is not needed may be given up anywhere.

The credit is for the loops whose rounds come from replies. A page of a scan says how many
pages there are to come and which keys are to be looked at, so it pays for them; what the
whole loop costs is then what its pages have brought, and nothing has to be known of the
pages beforehand.
-/

namespace Concurrent

namespace Program

variable {I : Interface} {ε ε' α β : Type}

/-- With `n` calls to spend and what `credit` brings, `p` never runs out, and has `Q a` left
at a result `a`. -/
def Affords (credit : I.Event → ℕ) (Q : α → ℕ) : ℕ → Program I ε α → Prop
  | n, .ret a => Q a ≤ n
  | _, .throw _ => True
  | n, .call c next => ∀ x, 0 < n ∧ (next x).Affords credit Q (n - 1 + credit (I.event c x))

variable {credit credit' : I.Event → ℕ} {Q Q' : α → ℕ} {R : β → ℕ} {n n' : ℕ}

theorem affords_ret {a : α} (h : Q a ≤ n) : (Program.ret a : Program I ε α).Affords credit Q n := h

theorem affords_throw {e : ε} : (Program.throw e : Program I ε α).Affords credit Q n := trivial

/-- A call takes one, and what its reply brings is there for what follows. -/
theorem affords_call {c : I.Cmd} {next : I.Resp c → Program I ε α}
    (hnext : ∀ x, (next x).Affords credit Q (n + credit (I.event c x))) :
    (Program.call c next).Affords credit Q (n + 1) := fun x => ⟨Nat.succ_pos n, hnext x⟩

/-- More to spend, more credit and less to be left at the end do no harm. -/
theorem Affords.mono {p : Program I ε α} (hp : p.Affords credit Q n) (hn : n ≤ n')
    (hcredit : ∀ e, credit e ≤ credit' e) (hQ : ∀ a, Q' a ≤ Q a) : p.Affords credit' Q' n' := by
  induction p generalizing n n' with
  | ret a => exact (hQ a).trans (le_trans hp hn)
  | throw e => trivial
  | call c next ih =>
      intro x
      obtain ⟨hpos, hnext⟩ := hp x
      refine ⟨hpos.trans_le hn, ih x hnext ?_⟩
      have := hcredit (I.event c x)
      omega

theorem Affords.le {p : Program I ε α} (hp : p.Affords credit Q n) (hn : n ≤ n') :
    p.Affords credit Q n' := hp.mono hn (fun _ => le_rfl) fun _ => le_rfl

/-- What is not spent is left. -/
theorem Affords.frame {p : Program I ε α} (hp : p.Affords credit Q n) (k : ℕ) :
    p.Affords credit (fun a => Q a + k) (n + k) := by
  induction p generalizing n with
  | ret a => exact Nat.add_le_add_right hp k
  | throw e => trivial
  | call c next ih =>
      intro x
      obtain ⟨hpos, hnext⟩ := hp x
      have hframe := ih x hnext
      have hmoved : n - 1 + credit (I.event c x) + k = n + k - 1 + credit (I.event c x) := by omega
      exact ⟨by omega, hmoved ▸ hframe⟩

theorem affords_bind {p : Program I ε α} {f : α → Program I ε β} (hp : p.Affords credit Q n)
    (hf : ∀ a, (f a).Affords credit R (Q a)) : (p >>= f).Affords credit R n := by
  change (p.bind f).Affords credit R n
  induction p generalizing n with
  | ret a => exact (hf a).le hp
  | throw e => trivial
  | call c next ih => exact fun x => ⟨(hp x).1, ih x (hp x).2⟩

/-- Sequencing where the first program needs `k` and the second the rest. -/
theorem affords_seq {p : Program I ε α} {f : α → Program I ε β} {k : ℕ}
    (hp : p.Affords credit (fun _ => 0) k) (hf : ∀ a, (f a).Affords credit R n) (hn : k + n ≤ n') :
    (p >>= f).Affords credit R n' := by
  refine (affords_bind (hp.frame n) fun a => ?_).le hn
  simpa using hf a

/-- An exception is a result of an attempt, and may come when nothing is left. -/
theorem affords_attempt {p : Program I ε α} (hp : p.Affords credit Q n) :
    (p.attempt : Program I ε' (Except ε α)).Affords credit (fun _ => 0) n := by
  induction p generalizing n with
  | ret a => exact Nat.zero_le n
  | throw e => exact Nat.zero_le n
  | call c next ih => exact fun x => ⟨(hp x).1, ih x (hp x).2⟩

theorem affords_ofExcept {x : Except ε α} :
    (ofExcept x : Program I ε α).Affords credit (fun _ => 0) n := by
  cases x with
  | ok a => exact Nat.zero_le n
  | error e => trivial

theorem affords_ite {b : Prop} [Decidable b] {p q : Program I ε α} (hp : p.Affords credit Q n)
    (hq : q.Affords credit Q n) : (if b then p else q).Affords credit Q n := by
  split
  · exact hp
  · exact hq

/-! ### Programs without credit -/

/-- `p` makes at most `n` calls, whatever it is replied. -/
def Costs (n : ℕ) (p : Program I ε α) : Prop := p.Affords (fun _ => 0) (fun _ => 0) n

variable {k : ℕ}

theorem Costs.le {p : Program I ε α} (hp : Costs n p) (hn : n ≤ n') : Costs n' p :=
  Affords.le hp hn

/-- A program that needs no credit can have some. -/
theorem Costs.affords {p : Program I ε α} (hp : Costs n p) :
    p.Affords credit (fun _ => 0) n :=
  hp.mono le_rfl (fun _ => Nat.zero_le _) fun _ => le_rfl

theorem costs_ret {a : α} : Costs n (Program.ret a : Program I ε α) := Nat.zero_le n

theorem costs_throw {e : ε} : Costs n (Program.throw e : Program I ε α) := trivial

theorem costs_call {c : I.Cmd} {next : I.Resp c → Program I ε α} (hnext : ∀ x, Costs n (next x)) :
    Costs (n + 1) (Program.call c next) := affords_call hnext

/-- The second program has what the first leaves. -/
theorem costs_bind {p : Program I ε α} {f : α → Program I ε β} (hp : Costs k p) (hk : k ≤ n)
    (hf : ∀ a, Costs (n - k) (f a)) : Costs n (p >>= f) :=
  affords_seq hp hf (by omega)

theorem costs_attempt {p : Program I ε α} (hp : Costs n p) :
    Costs n (p.attempt : Program I ε' (Except ε α)) := affords_attempt hp

theorem costs_ofExcept {x : Except ε α} : Costs 0 (ofExcept x : Program I ε α) := affords_ofExcept

theorem costs_ite {b : Prop} [Decidable b] {p q : Program I ε α} (hp : Costs n p)
    (hq : Costs n q) : Costs n (if b then p else q) := affords_ite hp hq

/-! ### Paths -/

theorem Path.cons_inv {p q : Program I ε α} {e : I.Event} {h : List I.Event}
    (hpath : Path p (e :: h) q) :
    ∃ c next r, e = I.event c r ∧ q = next r ∧ Path p h (.call c next) := by
  generalize hl : e :: h = l at hpath
  cases hpath with
  | start => simp at hl
  | call r hbefore =>
      obtain ⟨rfl, rfl⟩ := List.cons.inj hl
      exact ⟨_, _, r, rfl, rfl, hbefore⟩

/-- On every path the calls made and what is left come to what there was and what has been
brought. -/
theorem Affords.path {p q : Program I ε α} {h : List I.Event} (hp : p.Affords credit Q n)
    (hpath : Path p h q) :
    ∃ m, q.Affords credit Q m ∧ h.length + m = n + (h.map credit).sum := by
  induction hpath with
  | start => exact ⟨n, hp, by simp⟩
  | @call h c next x _ ih =>
      obtain ⟨m, hcall, hm⟩ := ih
      obtain ⟨hpos, hnext⟩ := hcall x
      refine ⟨_, hnext, ?_⟩
      simp only [List.length_cons, List.map_cons, List.sum_cons]
      omega

theorem Affords.length_le {p q : Program I ε α} {h : List I.Event} (hp : p.Affords credit Q n)
    (hpath : Path p h q) : h.length ≤ n + (h.map credit).sum := by
  obtain ⟨m, -, hm⟩ := hp.path hpath
  omega

end Program

/-! ### Runs -/

variable {S : System I} {A : Trace S → Entry S → Prop} {w : S.World} {tr : Trace S}
  {budget : S.Req → ℕ} {credit : I.Event → ℕ}

/-- What a step brings: the budget of the request that arrives, the credit of the event. -/
def Item.supply (budget : S.Req → ℕ) (credit : I.Event → ℕ) : Item S → ℕ
  | .start q => budget q
  | .act e => credit e
  | .done _ => 0

/-- What has been brought in a trace. -/
def supplied (budget : S.Req → ℕ) (credit : I.Event → ℕ) (tr : Trace S) : ℕ :=
  (tr.map fun y => y.item.supply budget credit).sum

/-- The calls made in a trace. -/
def spent (tr : Trace S) : ℕ := tr.countP fun y => y.item.isEvent fun _ => true

/-- The requests of a trace. -/
def arrivals (tr : Trace S) : ℕ := tr.countP fun y => y.item.isStart fun _ => true

theorem supplied_cons {y : Entry S} :
    supplied budget credit (y :: tr) = y.item.supply budget credit + supplied budget credit tr := by
  simp [supplied]

theorem arrivals_cons {y : Entry S} :
    arrivals (y :: tr) = arrivals tr + if y.item.isStart fun _ => true then 1 else 0 :=
  List.countP_cons

theorem spent_cons {y : Entry S} :
    spent (y :: tr) = spent tr + if y.item.isEvent fun _ => true then 1 else 0 :=
  List.countP_cons

/-- One bound for all budgets. -/
theorem supplied_le {b : ℕ} (hb : ∀ q, budget q ≤ b) :
    supplied budget credit tr ≤ b * arrivals tr + supplied (fun _ => 0) credit tr := by
  induction tr with
  | nil => simp [supplied]
  | cons y tr ih =>
      obtain ⟨t, w₀, item⟩ := y
      rw [supplied_cons, supplied_cons, arrivals_cons]
      cases item with
      | start q =>
          have := hb q
          simp only [Item.supply, Item.isStart, if_true, Nat.mul_add, Nat.mul_one]
          omega
      | act e =>
          simp only [Item.supply, Item.isStart, Bool.false_eq_true, if_false, Nat.add_zero]
          omega
      | done o =>
          simp only [Item.supply, Item.isStart, Bool.false_eq_true, if_false, Nat.add_zero]
          omega

/-- The threads of a trace. -/
def threads (tr : Trace S) : Finset ℕ := (tr.map (·.tid)).toFinset

/-- Every thread can do what it still has to do with what it has left, and nothing is left
that has not been brought. -/
structure Ledger (budget : S.Req → ℕ) (credit : I.Event → ℕ) (tr : Trace S) (left : ℕ → ℕ) :
    Prop where
  affords : ∀ t q p, Started t q tr → (S.program q).Path (own t tr) p →
    p.Affords credit (fun _ => 0) (left t)
  balance : spent tr + ∑ t ∈ threads tr, left t = supplied budget credit tr

variable {left : ℕ → ℕ} {t : ℕ} {q : S.Req} {w₀ : S.World}

theorem Started.mem_threads (hq : Started t q tr) : t ∈ threads tr := by
  obtain ⟨w₀, hw₀⟩ := hq
  exact List.mem_toFinset.mpr (List.mem_map.mpr ⟨_, hw₀, rfl⟩)

theorem Started.of_act {t' : ℕ} {e : I.Event} (hq : Started t q (⟨t', w₀, .act e⟩ :: tr)) :
    Started t q tr := by
  obtain ⟨w₁, hw₁⟩ := hq
  exact ⟨w₁, by simpa using hw₁⟩

theorem Started.of_done {t' : ℕ} {o : S.Out} (hq : Started t q (⟨t', w₀, .done o⟩ :: tr)) :
    Started t q tr := by
  obtain ⟨w₁, hw₁⟩ := hq
  exact ⟨w₁, by simpa using hw₁⟩

/-- A request brings its budget with it. -/
theorem Ledger.start (hS : ∀ q, (S.program q).Affords credit (fun _ => 0) (budget q))
    (hledger : Ledger budget credit tr left) (hfresh : ∀ y ∈ tr, y.tid ≠ t) :
    Ledger budget credit (⟨t, w₀, .start q⟩ :: tr) (Function.update left t (budget q)) where
  affords t' q' p hq' hpath := by
    obtain ⟨w₁, hw₁⟩ := hq'
    obtain heq | hold := List.mem_cons.mp hw₁
    · cases heq
      rw [own_start, own_eq_nil hfresh] at hpath
      cases hpath
      simpa using hS q
    · have ht : t' ≠ t := hfresh _ hold
      rw [Function.update_of_ne ht]
      exact hledger.affords t' q' p ⟨w₁, hold⟩ hpath
  balance := by
    have ht : t ∉ threads tr := by
      intro hmem
      obtain ⟨y, hy, hyt⟩ := List.mem_map.mp (List.mem_toFinset.mp hmem)
      exact hfresh y hy hyt
    have hthreads : threads (⟨t, w₀, .start q⟩ :: tr) = insert t (threads tr) := by
      simp [threads]
    rw [hthreads, Finset.sum_insert ht, Finset.sum_update_of_notMem ht, Function.update_self]
    have := hledger.balance
    simp only [spent_cons, supplied_cons, Item.isEvent, Item.supply, Bool.false_eq_true, if_false]
    omega

/-- A call is paid for by its thread, which gets what the reply brings. -/
theorem Ledger.act {c : I.Cmd} {next : I.Resp c → Program I S.Err S.Out}
    (hledger : Ledger budget credit tr left) (r : I.Resp c) (hq : Started t q tr)
    (hpath : (S.program q).Path (own t tr) (.call c next)) :
    Ledger budget credit (⟨t, w₀, .act (I.event c r)⟩ :: tr)
      (Function.update left t (left t - 1 + credit (I.event c r))) where
  affords t' q' p hq' hpath' := by
    by_cases ht : t' = t
    · subst ht
      rw [own_act_self] at hpath'
      obtain ⟨c', next', r', hevent, rfl, hbefore⟩ := hpath'.cons_inv
      rw [Function.update_self, hevent]
      exact (hledger.affords t' q' _ hq'.of_act hbefore r').2
    · rw [Function.update_of_ne ht]
      rw [own_act_ne (Ne.symm ht)] at hpath'
      exact hledger.affords t' q' p hq'.of_act hpath'
  balance := by
    have hpos : 0 < left t := (hledger.affords t q _ hq hpath r).1
    have hthreads : threads (⟨t, w₀, .act (I.event c r)⟩ :: tr) = threads tr := by
      simpa [threads] using hq.mem_threads
    have hbefore := Finset.sum_eq_add_sum_sdiff_singleton_of_mem hq.mem_threads left
    rw [hthreads, Finset.sum_update_of_mem hq.mem_threads]
    have := hledger.balance
    simp only [spent_cons, supplied_cons, Item.isEvent, Item.supply, if_true]
    omega

theorem Ledger.done {o : S.Out} (hledger : Ledger budget credit tr left) (hq : Started t q tr) :
    Ledger budget credit (⟨t, w₀, .done o⟩ :: tr) left where
  affords t' q' p hq' hpath := hledger.affords t' q' p hq'.of_done hpath
  balance := by
    have hthreads : threads (⟨t, w₀, .done o⟩ :: tr) = threads tr := by
      simpa [threads] using hq.mem_threads
    rw [hthreads]
    simpa [spent_cons, supplied_cons, Item.isEvent, Item.supply] using hledger.balance

/-- A request never makes more calls than it was given and the replies to it have brought. -/
theorem Run.own_length_le {n : ℕ} (hp : (S.program q).Affords credit (fun _ => 0) n)
    (h : Run A w tr) (hq : Started t q tr) :
    (own t tr).length ≤ n + ((own t tr).map credit).sum := by
  obtain ⟨p, hpath⟩ := h.path hq
  exact hp.length_le hpath

/-- **All requests together make no more calls than they and the replies have brought.** -/
theorem Run.spent_le (hS : ∀ q, (S.program q).Affords credit (fun _ => 0) (budget q))
    (h : Run A w tr) : spent tr ≤ supplied budget credit tr := by
  obtain ⟨left, hledger⟩ : ∃ left, Ledger budget credit tr left := by
    induction h with
    | init h =>
        refine ⟨fun _ => 0, fun t q p hq => ?_, by simp [spent, supplied, threads]⟩
        obtain ⟨_, hw⟩ := hq
        simp at hw
    | env _ _ _ ih => exact ih
    | step hrun hen _ ih =>
        obtain ⟨left, hledger⟩ := ih
        cases hen with
        | start hfresh => exact ⟨_, hledger.start hS hfresh⟩
        | act r hq hpath _ => exact ⟨_, hledger.act r hq hpath⟩
        | done hq _ _ => exact ⟨_, hledger.done hq⟩
  have := hledger.balance
  omega

end Concurrent
