import ZeroTrustProxy.Concurrent.Program
import Mathlib.Algebra.BigOperators.Group.Finset.Basic

/-!
Runs of a server that executes many programs at once.

A `System` is an interface, a shared world, and a program for every kind of
request. Its runs are interleavings: requests arrive at any time, each is
executed by a thread of its own, every call is one atomic step on the shared
world, and between any two steps the world may move by itself, which is how
time passes. A thread may also stop for ever after any of its steps.

The state of a run is the world and the *trace* of everything that has
happened, newest entry first. There is no separate program counter: the trace
says what a thread has done, and `Program.Path` says what it may do next.
Every entry keeps the world it was executed in, so that a statement about the
past, about an order of steps or about the state before a step is a statement
about the trace.

A run carries an assumption `A` on its steps. `A tr x` may speak about the
step `x`, the world before it and everything earlier; taking `A` to be true
gives all the runs there are.
-/

namespace Concurrent

/-- A server: the shared world, its requests and their programs, the effect
of an event on the world (`none` when the world does not give that reply)
and the moves the world makes by itself. -/
structure System (I : Interface) where
  World : Type
  Req : Type
  Err : Type
  Out : Type
  Env : Type
  program : Req → Program I Err Out
  init : World → Prop
  env : Env → World → Option World
  act : ℕ → I.Event → World → Option World

variable {I : Interface}

inductive Item (S : System I) where
  | start (q : S.Req)
  | act (e : I.Event)
  | done (o : S.Out)

/-- One step of a run: the thread that made it, the world before it, and what
it did. -/
structure Entry (S : System I) where
  tid : ℕ
  pre : S.World
  item : Item S

/-- Everything that has happened, newest first. -/
abbrev Trace (S : System I) := List (Entry S)

variable {S : System I}

/-- The history of one thread: its own events in a trace. -/
def own (t : ℕ) : Trace S → List I.Event
  | [] => []
  | ⟨t', _, .act e⟩ :: tr => if t' = t then e :: own t tr else own t tr
  | _ :: tr => own t tr

@[simp] theorem own_nil (t : ℕ) : own t ([] : Trace S) = [] := rfl

@[simp] theorem own_act_self (t : ℕ) (w : S.World) (e : I.Event) (tr : Trace S) :
    own t (⟨t, w, .act e⟩ :: tr) = e :: own t tr := by
  simp [own]

theorem own_act_ne {t t' : ℕ} (h : t' ≠ t) (w : S.World) (e : I.Event) (tr : Trace S) :
    own t (⟨t', w, .act e⟩ :: tr) = own t tr := by
  simp [own, h]

@[simp] theorem own_start (t t' : ℕ) (w : S.World) (q : S.Req) (tr : Trace S) :
    own t (⟨t', w, .start q⟩ :: tr) = own t tr := rfl

@[simp] theorem own_done (t t' : ℕ) (w : S.World) (o : S.Out) (tr : Trace S) :
    own t (⟨t', w, .done o⟩ :: tr) = own t tr := rfl

theorem own_append (t : ℕ) (post pre : Trace S) :
    own t (post ++ pre) = own t post ++ own t pre := by
  induction post with
  | nil => rfl
  | cons x post ih =>
      obtain ⟨t', w, item⟩ := x
      cases item with
      | start q => simpa using ih
      | act e =>
          by_cases ht : t' = t
          · subst ht; simpa using ih
          · simpa [own_act_ne ht] using ih
      | done o => simpa using ih

theorem own_suffix {tr tr' : Trace S} (h : tr <:+ tr') (t : ℕ) : own t tr <:+ own t tr' := by
  obtain ⟨post, rfl⟩ := h
  rw [own_append]
  exact List.suffix_append _ _

/-- An event is in the history of a thread when some entry of the trace
records that thread performing it. -/
theorem mem_own {t : ℕ} {e : I.Event} {tr : Trace S} :
    e ∈ own t tr ↔ ∃ w, ⟨t, w, .act e⟩ ∈ tr := by
  induction tr with
  | nil => simp
  | cons x tr ih =>
      obtain ⟨t', w', item⟩ := x
      cases item with
      | start q => simp [ih]
      | act e' =>
          by_cases ht : t' = t
          · subst ht
            simp only [own_act_self, List.mem_cons, ih, Entry.mk.injEq, Item.act.injEq,
              true_and]
            constructor
            · rintro (rfl | ⟨w, hw⟩)
              · exact ⟨w', .inl ⟨rfl, rfl⟩⟩
              · exact ⟨w, .inr hw⟩
            · rintro ⟨w, ⟨-, rfl⟩ | hw⟩
              · exact .inl rfl
              · exact .inr ⟨w, hw⟩
          · simp [own_act_ne ht, ih, Ne.symm ht]
      | done o => simp [ih]

theorem own_eq_nil {t : ℕ} {tr : Trace S} (h : ∀ y ∈ tr, y.tid ≠ t) : own t tr = [] := by
  rw [List.eq_nil_iff_forall_not_mem]
  intro e he
  obtain ⟨w, hw⟩ := mem_own.mp he
  exact h _ hw rfl

/-- Where a thread performed an event of its history. -/
theorem own_split {t : ℕ} {e : I.Event} {l₁ l₂ : List I.Event} {tr : Trace S}
    (h : own t tr = l₁ ++ e :: l₂) :
    ∃ post w pre, tr = post ++ ⟨t, w, .act e⟩ :: pre ∧ own t post = l₁ ∧ own t pre = l₂ := by
  induction tr generalizing l₁ with
  | nil => simp at h
  | cons x tr ih =>
      obtain ⟨t', w', item⟩ := x
      have hskip (hown : own t (⟨t', w', item⟩ :: tr) = own t tr)
          (hone : own t [(⟨t', w', item⟩ : Entry S)] = []) :
          ∃ post w pre, ⟨t', w', item⟩ :: tr = post ++ ⟨t, w, .act e⟩ :: pre ∧
            own t post = l₁ ∧ own t pre = l₂ := by
        obtain ⟨post, w, pre, rfl, hpost, hpre⟩ := ih (hown ▸ h)
        refine ⟨⟨t', w', item⟩ :: post, w, pre, rfl, ?_, hpre⟩
        rw [← List.singleton_append, own_append, hone, hpost, List.nil_append]
      cases item with
      | start q => exact hskip rfl rfl
      | done o => exact hskip rfl rfl
      | act e' =>
          by_cases ht : t' = t
          · subst ht
            rw [own_act_self] at h
            cases l₁ with
            | nil =>
                obtain ⟨rfl, hrest⟩ := List.cons.inj h
                exact ⟨[], w', tr, rfl, rfl, hrest⟩
            | cons e₁ l₁ =>
                obtain ⟨rfl, hrest⟩ := List.cons.inj h
                obtain ⟨post, w, pre, rfl, hpost, hpre⟩ := ih hrest
                exact ⟨⟨t', w', .act e'⟩ :: post, w, pre, rfl, by simp [hpost], hpre⟩
          · exact hskip (own_act_ne ht w' e' tr) (own_act_ne ht w' e' [])

theorem own_last {t : ℕ} {e : I.Event} {l : List I.Event} {tr : Trace S} (h : own t tr = e :: l) :
    ∃ post w pre, tr = post ++ ⟨t, w, .act e⟩ :: pre ∧ own t pre = l := by
  obtain ⟨post, w, pre, rfl, -, hpre⟩ := @own_split _ _ t e [] l tr h
  exact ⟨post, w, pre, rfl, hpre⟩

/-- The item is an event of the kind `p`. -/
def Item.isEvent (p : I.Event → Bool) : Item S → Bool
  | .act e => p e
  | _ => false

/-- The events of a kind, counted by the threads that perform them. -/
theorem countP_own {K : Finset ℕ} {p : I.Event → Bool} {tr : Trace S}
    (h : ∀ x ∈ tr, x.item.isEvent p = true → x.tid ∈ K) :
    tr.countP (fun x => x.item.isEvent p) = ∑ t ∈ K, (own t tr).countP p := by
  induction tr with
  | nil => simp
  | cons x tr ih =>
      have hrest := ih fun y hy => h y (List.mem_cons_of_mem _ hy)
      obtain ⟨t, w, item⟩ := x
      rw [List.countP_cons, hrest]
      cases item with
      | start q => simp [Item.isEvent]
      | done o => simp [Item.isEvent]
      | act e =>
          cases hp : p e with
          | false =>
              have hsame (t' : ℕ) : (own t' (⟨t, w, .act e⟩ :: tr)).countP p =
                  (own t' tr).countP p := by
                by_cases ht : t = t'
                · subst ht
                  simp [hp]
                · rw [own_act_ne ht]
              simp [Item.isEvent, hp, hsame]
          | true =>
              have ht : t ∈ K := h _ List.mem_cons_self hp
              rw [← Finset.sum_erase_add _ _ ht, ← Finset.sum_erase_add _ _ ht]
              have hothers : ∑ t' ∈ K.erase t, (own t' (⟨t, w, .act e⟩ :: tr)).countP p =
                  ∑ t' ∈ K.erase t, (own t' tr).countP p := by
                refine Finset.sum_congr rfl fun t' ht' => ?_
                rw [own_act_ne (Finset.ne_of_mem_erase ht').symm]
              rw [hothers, own_act_self, List.countP_cons]
              simp [Item.isEvent, hp, Nat.add_assoc]

/-- Thread `t` is executing the request `q`. -/
def Started (t : ℕ) (q : S.Req) (tr : Trace S) : Prop :=
  ∃ w, ⟨t, w, .start q⟩ ∈ tr

/-- Thread `t` has returned `o`. -/
def Returned (t : ℕ) (o : S.Out) (tr : Trace S) : Prop :=
  ∃ w, ⟨t, w, .done o⟩ ∈ tr

theorem Started.mono {t : ℕ} {q : S.Req} {tr : Trace S} (h : Started t q tr)
    {tr' : Trace S} (hsub : tr ⊆ tr') : Started t q tr' := by
  obtain ⟨w, hw⟩ := h
  exact ⟨w, hsub hw⟩

/-- The steps a trace enables: an unused thread takes up a request, a thread
performs the call its program has come to, or it returns the result its
program has come to. The index is the world after the step. -/
inductive Enabled (tr : Trace S) : Entry S → S.World → Prop
  | start {t : ℕ} {q : S.Req} {w : S.World} (hfresh : ∀ x ∈ tr, x.tid ≠ t) :
      Enabled tr ⟨t, w, .start q⟩ w
  | act {t : ℕ} {q : S.Req} {w w' : S.World} {c : I.Cmd}
      {next : I.Resp c → Program I S.Err S.Out} (r : I.Resp c) (hq : Started t q tr)
      (hpath : (S.program q).Path (own t tr) (.call c next))
      (hact : S.act t (I.event c r) w = some w') :
      Enabled tr ⟨t, w, .act (I.event c r)⟩ w'
  | done {t : ℕ} {q : S.Req} {w : S.World} {o : S.Out} (hq : Started t q tr)
      (hpath : (S.program q).Path (own t tr) (.ret o)) (hopen : ∀ o', ¬ Returned t o' tr) :
      Enabled tr ⟨t, w, .done o⟩ w

/-- `Run A w tr`: the trace `tr` can have happened, every step of it under the
assumption `A`, and the world is now `w`. -/
inductive Run (A : Trace S → Entry S → Prop) : S.World → Trace S → Prop
  | init {w : S.World} (h : S.init w) : Run A w []
  | env {w w' : S.World} {tr : Trace S} (m : S.Env) (hrun : Run A w tr)
      (h : S.env m w = some w') : Run A w' tr
  | step {w' : S.World} {tr : Trace S} {x : Entry S} (hrun : Run A x.pre tr)
      (h : Enabled tr x w') (hA : A tr x) : Run A w' (x :: tr)

/-- The runs of a system, with nothing assumed. -/
abbrev Reachable (w : S.World) (tr : Trace S) : Prop := Run (fun _ _ => True) w tr

variable {A : Trace S → Entry S → Prop}

theorem Run.mono {A' : Trace S → Entry S → Prop} {w : S.World} {tr : Trace S}
    (h : Run A w tr) (hA : ∀ tr x, A tr x → A' tr x) : Run A' w tr := by
  induction h with
  | init h => exact .init h
  | env m _ h ih => exact .env m ih h
  | step _ h hx ih => exact .step ih h (hA _ _ hx)

/-- Every step of a run may be taken to know where it stands in the whole
trace. -/
theorem Run.located {w : S.World} {tr : Trace S} (h : Run A w tr) :
    Run (fun pre x => A pre x ∧ x :: pre <:+ tr) w tr := by
  have hmono {w : S.World} {tr tr' : Trace S} (hsub : tr <:+ tr')
      (h : Run (fun pre x => A pre x ∧ x :: pre <:+ tr) w tr) :
      Run (fun pre x => A pre x ∧ x :: pre <:+ tr') w tr :=
    h.mono fun _ _ hx => ⟨hx.1, hx.2.trans hsub⟩
  induction h with
  | init h => exact .init h
  | env m _ h ih => exact .env m ih h
  | step _ h hA ih => exact .step (hmono (List.suffix_cons _ _) ih) h ⟨hA, List.suffix_rfl⟩

theorem Run.reachable {w : S.World} {tr : Trace S} (h : Run A w tr) : Reachable w tr :=
  h.mono fun _ _ _ => trivial

/-! ### Splitting traces -/

theorem suffix_of_mem {α : Type*} {e : α} {l : List α} (h : e ∈ l) : ∃ l₂, e :: l₂ <:+ l := by
  obtain ⟨l₁, l₂, rfl⟩ := List.append_of_mem h
  exact ⟨l₂, List.suffix_append _ _⟩

/-- An element of a list that has another one in it comes after that one or
before it. -/
theorem split_cases {α : Type*} {a b : α} {post pre seg tr : List α}
    (h : seg ++ a :: tr = post ++ b :: pre) (hne : b ≠ a) :
    (∃ mid, seg = post ++ b :: mid ∧ pre = mid ++ a :: tr) ∨
      ∃ mid, post = seg ++ a :: mid ∧ tr = mid ++ b :: pre := by
  rcases List.append_eq_append_iff.mp h with ⟨as, rfl, has⟩ | ⟨as, rfl, has⟩
  · cases as with
    | nil => exact (hne (List.cons.inj has).1.symm).elim
    | cons c as =>
        obtain ⟨rfl, rfl⟩ := List.cons.inj has
        exact .inr ⟨as, rfl, rfl⟩
  · cases as with
    | nil => exact (hne (List.cons.inj has).1).elim
    | cons c as =>
        obtain ⟨rfl, rfl⟩ := List.cons.inj has
        exact .inl ⟨as, rfl, rfl⟩

/-- A list with an element of a kind, split at the first one. -/
theorem split_first {α : Type*} {p : α → Prop} {l : List α} (h : ∃ a ∈ l, p a) :
    ∃ post a pre, l = post ++ a :: pre ∧ p a ∧ ∀ y ∈ post, ¬ p y := by
  induction l with
  | nil => simp at h
  | cons b l ih =>
      by_cases hb : p b
      · exact ⟨[], b, l, rfl, hb, by simp⟩
      · obtain ⟨a, ha, hp⟩ := h
        have hin : a ∈ l := (List.mem_cons.mp ha).resolve_left fun heq => hb (heq ▸ hp)
        obtain ⟨post, a', pre, rfl, ha', hpost⟩ := ih ⟨a, hin, hp⟩
        refine ⟨b :: post, a', pre, rfl, ha', fun y hy => ?_⟩
        rcases List.mem_cons.mp hy with rfl | hy
        · exact hb
        · exact hpost y hy

/-- Two ways of splitting a list at an element of a kind that occurs once. -/
theorem split_eq {α : Type*} {p : α → Prop} {a a' : α} {post pre post' pre' : List α}
    (h : post ++ a :: pre = post' ++ a' :: pre') (ha : p a) (ha' : p a')
    (hpre : ∀ y ∈ pre, ¬ p y) (hpre' : ∀ y ∈ pre', ¬ p y) : a = a' ∧ pre = pre' := by
  have haux {a a' : α} {pre pre' as : List α} (h : a :: pre = as ++ a' :: pre') (ha' : p a')
      (hpre : ∀ y ∈ pre, ¬ p y) : a = a' ∧ pre = pre' := by
    cases as with
    | nil => exact List.cons.inj h
    | cons b as =>
        obtain ⟨-, rfl⟩ := List.cons.inj h
        exact (hpre a' (by simp) ha').elim
  rcases List.append_eq_append_iff.mp h with ⟨as, -, hrest⟩ | ⟨as, -, hrest⟩
  · exact haux hrest ha' hpre
  · obtain ⟨rfl, rfl⟩ := haux hrest ha hpre'
    exact ⟨rfl, rfl⟩

/-- An element of a kind that occurs once is where it occurs. -/
theorem split_unique {α : Type*} {p : α → Prop} {a b : α} {post pre post' pre' : List α}
    (h : post ++ a :: pre = post' ++ b :: pre') (ha : p a) (hpost : ∀ y ∈ post', ¬ p y)
    (hpre : ∀ y ∈ pre', ¬ p y) : a = b ∧ pre = pre' := by
  rcases List.append_eq_append_iff.mp h with ⟨as, hpost', hrest⟩ | ⟨as, -, hrest⟩
  · cases as with
    | nil => exact List.cons.inj hrest
    | cons c as =>
        obtain ⟨rfl, -⟩ := List.cons.inj hrest
        exact (hpost a (by simp [hpost']) ha).elim
  · cases as with
    | nil =>
        obtain ⟨rfl, rfl⟩ := List.cons.inj hrest
        exact ⟨rfl, rfl⟩
    | cons c as =>
        obtain ⟨-, rfl⟩ := List.cons.inj hrest
        exact (hpre a (by simp) ha).elim

/-! ### Going back to an earlier point of a run -/

/-- Every entry of a trace was a step of a run that had the rest of the trace
behind it. -/
theorem Run.entry {w : S.World} {post pre : Trace S} {x : Entry S}
    (h : Run A w (post ++ x :: pre)) :
    Run A x.pre pre ∧ A pre x ∧ ∃ w', Enabled pre x w' := by
  generalize htr : post ++ x :: pre = tr at h
  induction h generalizing post with
  | init h => simp at htr
  | env m _ _ ih => exact ih htr
  | @step w' tr y hrun h hA ih =>
      cases post with
      | nil =>
          obtain ⟨rfl, rfl⟩ := List.cons.inj htr
          exact ⟨hrun, hA, w', h⟩
      | cons z post => exact ih (List.cons.inj htr).2

/-- What has happened up to some point of a run is a run. -/
theorem Run.of_suffix {w : S.World} {tr tr' : Trace S} (h : Run A w tr') (hsub : tr <:+ tr') :
    ∃ w', Run A w' tr := by
  obtain ⟨post, rfl⟩ := hsub
  rcases List.eq_nil_or_concat' post with rfl | ⟨post, y, rfl⟩
  · exact ⟨w, h⟩
  · rw [List.append_assoc, List.singleton_append] at h
    exact ⟨y.pre, h.entry.1⟩

theorem Run.entry_of_mem {w : S.World} {tr : Trace S} {x : Entry S}
    (h : Run A w tr) (hx : x ∈ tr) :
    ∃ post pre w', tr = post ++ x :: pre ∧ Run A x.pre pre ∧ A pre x ∧ Enabled pre x w' := by
  obtain ⟨post, pre, rfl⟩ := List.append_of_mem hx
  obtain ⟨hrun, hA, w', hen⟩ := h.entry
  exact ⟨post, pre, w', rfl, hrun, hA, hen⟩

/-- A thread executes one request. -/
theorem Run.started_unique {w : S.World} {tr : Trace S} (h : Run A w tr) {t : ℕ}
    {q q' : S.Req} (hq : Started t q tr) (hq' : Started t q' tr) : q = q' := by
  induction h with
  | init h => obtain ⟨_, hw⟩ := hq; simp at hw
  | env _ _ _ ih => exact ih hq hq'
  | @step w' tr x hrun h hA ih =>
      cases h with
      | @start t₀ q₀ w hfresh =>
          obtain ⟨w₁, h₁⟩ := hq
          obtain ⟨w₂, h₂⟩ := hq'
          rcases List.mem_cons.mp h₁ with new₁ | old₁ <;>
            rcases List.mem_cons.mp h₂ with new₂ | old₂
          · cases new₁; cases new₂; rfl
          · cases new₁; exact (hfresh _ old₂ rfl).elim
          · cases new₂; exact (hfresh _ old₁ rfl).elim
          · exact ih ⟨_, old₁⟩ ⟨_, old₂⟩
      | act r _ _ _ =>
          obtain ⟨w₁, h₁⟩ := hq
          obtain ⟨w₂, h₂⟩ := hq'
          exact ih ⟨w₁, by simpa using h₁⟩ ⟨w₂, by simpa using h₂⟩
      | done _ _ _ =>
          obtain ⟨w₁, h₁⟩ := hq
          obtain ⟨w₂, h₂⟩ := hq'
          exact ih ⟨w₁, by simpa using h₁⟩ ⟨w₂, by simpa using h₂⟩

/-- What a thread does comes after its start. -/
theorem Run.start_before {w : S.World} {post post₀ rest pre₀ : Trace S} {t : ℕ} {w₁ w₀ : S.World}
    {item : Item S} {q : S.Req} (h : Run A w (post ++ ⟨t, w₁, item⟩ :: rest))
    (heq : post ++ ⟨t, w₁, item⟩ :: rest = post₀ ++ ⟨t, w₀, .start q⟩ :: pre₀)
    (hne : ∀ q, item ≠ .start q) : ∃ mid, rest = mid ++ ⟨t, w₀, .start q⟩ :: pre₀ := by
  rcases split_cases heq.symm (by simp [hne q]) with ⟨mid, -, hmid⟩ | ⟨mid, -, rfl⟩
  · exact ⟨mid, hmid⟩
  · rw [heq] at h
    obtain ⟨-, -, w', hen⟩ := h.entry
    cases hen with
    | start hfresh => exact (hfresh _ (List.mem_append_right _ List.mem_cons_self) rfl).elim

/-- A thread that starts in the later part of a trace has no step in the
earlier part. -/
theorem Run.fresh_of_started {w : S.World} {seg tr : Trace S} {t : ℕ} {q : S.Req}
    (h : Run A w (seg ++ tr)) (hq : Started t q seg) : ∀ y ∈ tr, y.tid ≠ t := by
  obtain ⟨w₀, hstart⟩ := hq
  obtain ⟨post, pre, rfl⟩ := List.append_of_mem hstart
  rw [List.append_assoc, List.cons_append] at h
  obtain ⟨-, -, w', hen⟩ := h.entry
  cases hen with
  | start hfresh => exact fun y hy => hfresh y (List.mem_append_right _ hy)

theorem Run.own_of_started {w : S.World} {seg tr : Trace S} {t : ℕ} {q : S.Req}
    (h : Run A w (seg ++ tr)) (hq : Started t q seg) : own t (seg ++ tr) = own t seg := by
  rw [own_append, own_eq_nil (h.fresh_of_started hq), List.append_nil]

/-! ### Contracts

A contract says, for each request, which calls its program makes after which
histories, and what it has done when it returns. Programs are shown to keep
it by `Program.Obeys`, once; a run is then reasoned about through it. -/

/-- `L q` licenses the calls and `Q q` justifies the results of every thread
that executes `q`. -/
def Contract (S : System I) (L : S.Req → List I.Event → I.Cmd → Prop)
    (Q : S.Req → S.Out → List I.Event → Prop) : Prop :=
  ∀ q, (S.program q).Obeys (L q) [] (Q q) (fun _ _ => True)

variable {L : S.Req → List I.Event → I.Cmd → Prop} {Q : S.Req → S.Out → List I.Event → Prop}

/-- What a step that performs a call says: who performs it, that the call is
licensed by what the thread has seen, and what it does to the world. -/
theorem Enabled.licensed (hC : Contract S L Q) {tr : Trace S} {t : ℕ} {e : I.Event}
    {w w' : S.World} (h : Enabled tr ⟨t, w, .act e⟩ w') :
    ∃ q, Started t q tr ∧ L q (own t tr) (I.command e) ∧ S.act t e w = some w' := by
  cases h with
  | act r hq hpath hact =>
      have hobeys := hpath.obeys (hC _)
      exact ⟨_, hq, by simpa [I.command_event] using hobeys.1, hact⟩

theorem Enabled.justified (hC : Contract S L Q) {tr : Trace S} {t : ℕ} {o : S.Out}
    {w w' : S.World} (h : Enabled tr ⟨t, w, .done o⟩ w') :
    w' = w ∧ ∃ q, Started t q tr ∧ Q q o (own t tr) := by
  cases h with
  | done hq hpath _ => exact ⟨rfl, _, hq, hpath.obeys (hC _)⟩

/-- What an event in the history of a thread says, at the point where the
thread performed it. -/
theorem Run.licensed (hC : Contract S L Q) {w : S.World} {tr : Trace S} (h : Run A w tr) {t : ℕ}
    {e : I.Event} {l : List I.Event} (hl : e :: l <:+ own t tr) :
    ∃ post pre w₀ w₁ q, tr = post ++ ⟨t, w₀, .act e⟩ :: pre ∧ own t pre = l ∧ Run A w₀ pre ∧
      Started t q pre ∧ L q l (I.command e) ∧ S.act t e w₀ = some w₁ := by
  obtain ⟨l₁, hl₁⟩ := hl
  obtain ⟨post, w₀, pre, rfl, -, rfl⟩ := own_split hl₁.symm
  obtain ⟨hrun, -, w₁, hen⟩ := h.entry
  obtain ⟨q, hq, hL, hact⟩ := hen.licensed hC
  exact ⟨post, pre, w₀, w₁, q, rfl, rfl, hrun, hq, hL, hact⟩

/-! ### Invariants

An invariant is a statement about the world and the trace. In the step cases
it may be used where the step starts and at every earlier entry: `Past J tr`
says that it held there. -/

/-- `J` held before every entry of the trace. -/
def Past (J : S.World → Trace S → Prop) (tr : Trace S) : Prop :=
  ∀ x pre, x :: pre <:+ tr → J x.pre pre

theorem Past.cons {J : S.World → Trace S → Prop} {x : Entry S} {tr : Trace S}
    (h : Past J tr) (hx : J x.pre tr) : Past J (x :: tr) := by
  intro y pre hsuf
  rcases List.suffix_cons_iff.mp hsuf with heq | hsuf
  · obtain ⟨rfl, rfl⟩ := List.cons.inj heq
    exact hx
  · exact h y pre hsuf

/-- Induction over a run, with the past at hand. -/
theorem Run.induct (J : S.World → Trace S → Prop) (hinit : ∀ w, S.init w → J w [])
    (henv : ∀ {w w' tr} (m : S.Env), Run A w tr → J w tr → S.env m w = some w' → J w' tr)
    (hstep : ∀ {w' tr} {x : Entry S}, Run A x.pre tr → J x.pre tr → Past J tr →
      Enabled tr x w' → A tr x → J w' (x :: tr))
    {w : S.World} {tr : Trace S} (h : Run A w tr) : J w tr ∧ Past J tr := by
  induction h with
  | init h => exact ⟨hinit _ h, by intro y pre hsuf; simp at hsuf⟩
  | env m hrun h ih => exact ⟨henv m hrun ih.1 h, ih.2⟩
  | step hrun hen hA ih => exact ⟨hstep hrun ih.1 ih.2 hen hA, ih.2.cons ih.1⟩

/-- The cases of a step, each with what the contract says about it. -/
theorem Enabled.elim (hC : Contract S L Q) {tr : Trace S} {x : Entry S} {w' : S.World}
    (h : Enabled tr x w') {P : S.World → Entry S → Prop}
    (hstart : ∀ {w t} (q : S.Req), P w ⟨t, w, .start q⟩)
    (hact : ∀ {w w' t q e}, Started t q tr → L q (own t tr) (I.command e) →
      S.act t e w = some w' → x = ⟨t, w, .act e⟩ → P w' ⟨t, w, .act e⟩)
    (hdone : ∀ {w t q o}, Started t q tr → Q q o (own t tr) → P w ⟨t, w, .done o⟩) : P w' x := by
  obtain ⟨t, w, item⟩ := x
  cases item with
  | start q =>
      cases h with
      | start _ => exact hstart q
  | act e =>
      obtain ⟨q, hq, hL, hact'⟩ := h.licensed hC
      exact hact hq hL hact' rfl
  | done o =>
      obtain ⟨rfl, q, hq, hQ⟩ := h.justified hC
      exact hdone hq hQ

/-- **The invariant rule.** `J` holds in every run when it holds initially and
is kept by the moves of the world, by the arrival and the return of requests
and by every licensed event. -/
theorem Run.invariant (hC : Contract S L Q) (J : S.World → Trace S → Prop)
    (hinit : ∀ w, S.init w → J w [])
    (henv : ∀ {w w' tr} (m : S.Env), Run A w tr → J w tr → S.env m w = some w' → J w' tr)
    (hstart : ∀ {w tr t} (q : S.Req), J w tr → Past J tr → J w (⟨t, w, .start q⟩ :: tr))
    (hact : ∀ {w w' tr t q e}, Run A w tr → J w tr → Past J tr → Started t q tr →
      L q (own t tr) (I.command e) → S.act t e w = some w' → A tr ⟨t, w, .act e⟩ →
      J w' (⟨t, w, .act e⟩ :: tr))
    (hdone : ∀ {w tr t q o}, Run A w tr → J w tr → Past J tr → Started t q tr →
      Q q o (own t tr) → J w (⟨t, w, .done o⟩ :: tr))
    {w : S.World} {tr : Trace S} (h : Run A w tr) : J w tr ∧ Past J tr := by
  refine h.induct J hinit henv fun {w' tr x} hrun hJ hpast hen hA => ?_
  refine hen.elim hC (P := fun w' y => y = x → J w' (y :: tr)) ?_ ?_ ?_ rfl
  · rintro w t q rfl
    exact hstart q hJ hpast
  · rintro w w' t q e hq hL hact' - rfl
    exact hact hrun hJ hpast hq hL hact' hA
  · rintro w t q o hq hQ rfl
    exact hdone hrun hJ hpast hq hQ

/-- The invariant rule from a step `x₀` of the run on: `J` speaks about the
world and about what has happened since. -/
theorem Run.since (hC : Contract S L Q) {x₀ : Entry S} {tr₀ : Trace S}
    (J : S.World → Trace S → Prop)
    (hbase : ∀ {w}, Run A x₀.pre tr₀ → A tr₀ x₀ → Enabled tr₀ x₀ w → J w [])
    (henv : ∀ {w w' seg} (m : S.Env), Run A w (seg ++ x₀ :: tr₀) → J w seg →
      S.env m w = some w' → J w' seg)
    (hstart : ∀ {w seg t} (q : S.Req), J w seg → Past J seg → J w (⟨t, w, .start q⟩ :: seg))
    (hact : ∀ {w w' seg t q e}, Run A w (seg ++ x₀ :: tr₀) → J w seg → Past J seg →
      Started t q (seg ++ x₀ :: tr₀) → L q (own t (seg ++ x₀ :: tr₀)) (I.command e) →
      S.act t e w = some w' → A (seg ++ x₀ :: tr₀) ⟨t, w, .act e⟩ →
      J w' (⟨t, w, .act e⟩ :: seg))
    (hdone : ∀ {w seg t q o}, Run A w (seg ++ x₀ :: tr₀) → J w seg → Past J seg →
      Started t q (seg ++ x₀ :: tr₀) → Q q o (own t (seg ++ x₀ :: tr₀)) →
      J w (⟨t, w, .done o⟩ :: seg))
    {w : S.World} {seg : Trace S} (h : Run A w (seg ++ x₀ :: tr₀)) : J w seg ∧ Past J seg := by
  have hpast {tr : Trace S} {seg : Trace S} (htr : tr = seg ++ x₀ :: tr₀)
      (hp : Past (fun w tr => ∀ seg, tr = seg ++ x₀ :: tr₀ → J w seg) tr) : Past J seg := by
    intro y pre hsuf
    refine hp y (pre ++ x₀ :: tr₀) ?_ pre rfl
    obtain ⟨post, rfl⟩ := hsuf
    exact ⟨post, by simp [htr]⟩
  have hall := h.induct (fun w tr => ∀ seg, tr = seg ++ x₀ :: tr₀ → J w seg)
    (by simp) (fun m hrun hJ hm seg htr => henv m (htr ▸ hrun) (hJ seg htr) hm) ?_
  · exact ⟨hall.1 seg rfl, hpast rfl hall.2⟩
  · intro w' tr x hrun hJ hp hen hA seg htr
    cases seg with
    | nil =>
        obtain ⟨rfl, rfl⟩ := List.cons.inj htr
        exact hbase hrun hA hen
    | cons y seg =>
        obtain ⟨rfl, rfl⟩ := List.cons.inj htr
        have hJ' := hJ seg rfl
        have hp' := hpast rfl hp
        refine hen.elim hC (P := fun w' y => y = x → J w' (y :: seg)) ?_ ?_ ?_ rfl
        · rintro w t q rfl
          exact hstart q hJ' hp'
        · rintro w w' t q e hq hL hact' - rfl
          exact hact hrun hJ' hp' hq hL hact' hA
        · rintro w t q o hq hQ rfl
          exact hdone hrun hJ' hp' hq hQ

end Concurrent
