import ZeroTrustProxy.Concurrent.Run

/-!
How a program can end.

`Program.Obeys` bounds what a program may do; `Program.Ends` says exactly what
it has done when it has come to an end. The rules are inversions: from the end
of a program they give the branch it has taken and the events of every part of
it. A thread of a run that has returned has ended so, with its own history.
-/

namespace Concurrent

variable {I : Interface} {ε ε' α β : Type}

namespace Program

/-- `p.Ends h r`: `p` can perform the events `h`, newest first, and has then
come to `r`. -/
def Ends : Program I ε α → List I.Event → Except ε α → Prop
  | .ret a, h, r => h = [] ∧ r = .ok a
  | .throw e, h, r => h = [] ∧ r = .error e
  | .call c next, h, r => ∃ x h', h = h' ++ [I.event c x] ∧ (next x).Ends h' r

variable {h : List I.Event} {r : Except ε α}

@[simp] theorem ends_ret {a : α} : (Program.ret a : Program I ε α).Ends h r ↔ h = [] ∧ r = .ok a :=
  Iff.rfl

@[simp] theorem ends_pure {a : α} : (pure a : Program I ε α).Ends h r ↔ h = [] ∧ r = .ok a :=
  Iff.rfl

@[simp] theorem ends_throw {e : ε} :
    (Program.throw e : Program I ε α).Ends h r ↔ h = [] ∧ r = .error e := Iff.rfl

@[simp] theorem ends_call {c : I.Cmd} {next : I.Resp c → Program I ε α} :
    (Program.call c next).Ends h r ↔ ∃ x h', h = h' ++ [I.event c x] ∧ (next x).Ends h' r := Iff.rfl

@[simp] theorem ends_ofExcept {x : Except ε α} :
    (ofExcept x : Program I ε α).Ends h r ↔ h = [] ∧ r = x := by
  cases x <;> simp [ofExcept]

theorem ends_ite {c : Prop} [Decidable c] {p q : Program I ε α} :
    (if c then p else q).Ends h r ↔ (c ∧ p.Ends h r) ∨ (¬ c ∧ q.Ends h r) := by
  by_cases hc : c <;> simp [hc]

theorem ret_bind {a : α} {f : α → Program I ε β} : (Program.ret a >>= f) = f a := rfl

theorem throw_bind {e : ε} {f : α → Program I ε β} :
    (Program.throw e >>= f) = .throw e := rfl

theorem call_bind {c : I.Cmd} {next : I.Resp c → Program I ε α} {f : α → Program I ε β} :
    (Program.call c next >>= f) = .call c fun x => next x >>= f := rfl

/-- Both programs of a sequence have ended, or the first has raised. -/
theorem ends_bind {p : Program I ε α} {f : α → Program I ε β} {r : Except ε β} :
    (p >>= f).Ends h r ↔
      (∃ a h₁ h₂, h = h₂ ++ h₁ ∧ p.Ends h₁ (.ok a) ∧ (f a).Ends h₂ r) ∨
        ∃ e, r = .error e ∧ p.Ends h (.error e) := by
  change (p.bind f).Ends h r ↔ _
  induction p generalizing h with
  | ret a =>
      simp only [Program.bind, ends_ret, Except.ok.injEq, reduceCtorEq, and_false, exists_false,
        or_false]
      constructor
      · exact fun hf => ⟨a, [], h, by simp, ⟨rfl, rfl⟩, hf⟩
      · rintro ⟨_, _, h₂, rfl, ⟨rfl, rfl⟩, hf⟩
        simpa using hf
  | throw e =>
      simp only [Program.bind, ends_throw, reduceCtorEq, and_false, false_and, exists_false,
        false_or, Except.error.injEq]
      constructor
      · rintro ⟨rfl, rfl⟩
        exact ⟨e, rfl, rfl, rfl⟩
      · rintro ⟨_, rfl, rfl, rfl⟩
        exact ⟨rfl, rfl⟩
  | call c next ih =>
      simp only [Program.bind, ends_call]
      constructor
      · rintro ⟨x, h', rfl, hrest⟩
        rcases (ih x).mp hrest with ⟨a, h₁, h₂, rfl, hp, hf⟩ | ⟨e, rfl, hp⟩
        · exact .inl ⟨a, _, h₂, by rw [List.append_assoc], ⟨x, h₁, rfl, hp⟩, hf⟩
        · exact .inr ⟨e, rfl, x, h', rfl, hp⟩
      · rintro (⟨a, _, h₂, rfl, ⟨x, h₁, rfl, hp⟩, hf⟩ | ⟨e, rfl, x, h', rfl, hp⟩)
        · exact ⟨x, h₂ ++ h₁, by rw [List.append_assoc], (ih x).mpr (.inl ⟨a, h₁, h₂, rfl, hp, hf⟩)⟩
        · exact ⟨x, h', rfl, (ih x).mpr (.inr ⟨e, rfl, hp⟩)⟩

theorem ends_attempt {p : Program I ε α} {r : Except ε' (Except ε α)} :
    (p.attempt : Program I ε' (Except ε α)).Ends h r ↔ ∃ r', r = .ok r' ∧ p.Ends h r' := by
  induction p generalizing h with
  | ret a =>
      simp only [attempt, ends_ret]
      constructor
      · rintro ⟨rfl, rfl⟩
        exact ⟨_, rfl, rfl, rfl⟩
      · rintro ⟨_, rfl, rfl, rfl⟩
        exact ⟨rfl, rfl⟩
  | throw e =>
      simp only [attempt, ends_ret, ends_throw]
      constructor
      · rintro ⟨rfl, rfl⟩
        exact ⟨_, rfl, rfl, rfl⟩
      · rintro ⟨_, rfl, rfl, rfl⟩
        exact ⟨rfl, rfl⟩
  | call c next ih =>
      simp only [attempt, ends_call]
      constructor
      · rintro ⟨x, h', rfl, hrest⟩
        obtain ⟨r', rfl, hp⟩ := (ih x).mp hrest
        exact ⟨r', rfl, x, h', rfl, hp⟩
      · rintro ⟨r', rfl, x, h', rfl, hp⟩
        exact ⟨x, h', rfl, (ih x).mpr ⟨r', rfl, hp⟩⟩

/-- Where the event of a call determines its reply, a program has come to one
point after the events it has performed. -/
theorem Path.functional (hinj : ∀ c x y, I.event c x = I.event c y → x = y)
    {p q q' : Program I ε α} (h₁ : Path p h q) (h₂ : Path p h q') : q = q' := by
  induction h₁ generalizing q' with
  | start =>
      cases h₂ with
      | start => rfl
  | @call h c next x hpath ih =>
      generalize hcons : I.event c x :: h = l at h₂
      cases h₂ with
      | start => simp at hcons
      | @call h' c' next' x' hpath' =>
          obtain ⟨hevent, rfl⟩ := List.cons.inj hcons
          cases ih hpath'
          rw [hinj c x x' hevent]

/-- What comes after a path ends what came before it. -/
theorem Path.ends {p q : Program I ε α} {h' : List I.Event} (hpath : Path p h q)
    (hq : q.Ends h' r) : p.Ends (h' ++ h) r := by
  induction hpath generalizing h' with
  | start => simpa using hq
  | call x _ ih =>
      rw [← List.singleton_append, ← List.append_assoc]
      exact ih (ends_call.mpr ⟨x, h', rfl, hq⟩)

/-- A program does not end twice on one path. -/
theorem Ends.unique (hinj : ∀ c x y, I.event c x = I.event c y → x = y) {p : Program I ε α}
    {h' : List I.Event} {r r' : Except ε α} (hp : p.Ends h r) (hsub : h' <:+ h)
    (hp' : p.Ends h' r') : h' = h ∧ r' = r := by
  induction p generalizing h h' with
  | ret a =>
      obtain ⟨rfl, rfl⟩ := hp
      obtain ⟨rfl, rfl⟩ := hp'
      exact ⟨rfl, rfl⟩
  | throw e =>
      obtain ⟨rfl, rfl⟩ := hp
      obtain ⟨rfl, rfl⟩ := hp'
      exact ⟨rfl, rfl⟩
  | call c next ih =>
      obtain ⟨x, l, rfl, hrest⟩ := hp
      obtain ⟨x', l', rfl, hrest'⟩ := hp'
      obtain ⟨post, hpost⟩ := hsub
      rw [← List.append_assoc] at hpost
      obtain ⟨hl, hevent⟩ := List.append_inj' hpost rfl
      obtain rfl := hinj c x' x (List.cons.inj hevent).1
      obtain ⟨rfl, rfl⟩ := ih x' hrest ⟨post, hl⟩ hrest'
      exact ⟨rfl, rfl⟩

/-! ### Coming to a call -/

/-- `p.Calls h c`: `p` can perform the events `h` and has then come to the
call `c`. -/
def Calls : Program I ε α → List I.Event → I.Cmd → Prop
  | .ret _, _, _ => False
  | .throw _, _, _ => False
  | .call c next, h, c' => (h = [] ∧ c = c') ∨ ∃ x h', h = h' ++ [I.event c x] ∧ (next x).Calls h' c'

variable {c : I.Cmd}

@[simp] theorem calls_ret {a : α} : ¬ (Program.ret a : Program I ε α).Calls h c := id

@[simp] theorem calls_pure {a : α} : ¬ (pure a : Program I ε α).Calls h c := id

@[simp] theorem calls_throw {e : ε} : ¬ (Program.throw e : Program I ε α).Calls h c := id

@[simp] theorem calls_call {c' : I.Cmd} {next : I.Resp c' → Program I ε α} :
    (Program.call c' next).Calls h c ↔
      (h = [] ∧ c' = c) ∨ ∃ x h', h = h' ++ [I.event c' x] ∧ (next x).Calls h' c := Iff.rfl

/-- The first program of a sequence has come to the call, or it has ended and
the second has. -/
theorem calls_bind {p : Program I ε α} {f : α → Program I ε β} :
    (p >>= f).Calls h c ↔
      p.Calls h c ∨ ∃ a h₁ h₂, h = h₂ ++ h₁ ∧ p.Ends h₁ (.ok a) ∧ (f a).Calls h₂ c := by
  change (p.bind f).Calls h c ↔ _
  induction p generalizing h with
  | ret a =>
      simp only [Program.bind, calls_ret, ends_ret, Except.ok.injEq, false_or]
      constructor
      · exact fun hf => ⟨a, [], h, by simp, ⟨rfl, rfl⟩, hf⟩
      · rintro ⟨_, _, h₂, rfl, ⟨rfl, rfl⟩, hf⟩
        simpa using hf
  | throw e => simp [Program.bind]
  | call c' next ih =>
      simp only [Program.bind, calls_call, ends_call]
      constructor
      · rintro (hnow | ⟨x, h', rfl, hrest⟩)
        · exact .inl (.inl hnow)
        · obtain hp | ⟨a, h₁, h₂, rfl, hp, hf⟩ := (ih x).mp hrest
          · exact .inl (.inr ⟨x, h', rfl, hp⟩)
          · exact .inr ⟨a, _, h₂, by rw [List.append_assoc], ⟨x, h₁, rfl, hp⟩, hf⟩
      · rintro ((hnow | ⟨x, h', rfl, hp⟩) | ⟨a, _, h₂, rfl, ⟨x, h₁, rfl, hp⟩, hf⟩)
        · exact .inl hnow
        · exact .inr ⟨x, h', rfl, (ih x).mpr (.inl hp)⟩
        · exact .inr ⟨x, h₂ ++ h₁, by rw [List.append_assoc],
            (ih x).mpr (.inr ⟨a, h₁, h₂, rfl, hp, hf⟩)⟩

theorem calls_attempt {p : Program I ε α} :
    (p.attempt : Program I ε' (Except ε α)).Calls h c ↔ p.Calls h c := by
  induction p generalizing h with
  | ret a => exact Iff.rfl
  | throw e => exact Iff.rfl
  | call c' next ih => simp only [attempt, calls_call, ih]

/-- A call on a path is come to. -/
theorem Path.calls {p q : Program I ε α} {h' : List I.Event} (hpath : Path p h q)
    (hq : q.Calls h' c) : p.Calls (h' ++ h) c := by
  induction hpath generalizing h' with
  | start => simpa using hq
  | call x _ ih =>
      rw [← List.singleton_append, ← List.append_assoc]
      exact ih (calls_call.mpr (.inr ⟨x, h', rfl, hq⟩))

/-- `p` never comes to the call `c`. -/
def Never (c : I.Cmd) (p : Program I ε α) : Prop := ∀ h, ¬ p.Calls h c

theorem never_ret {a : α} : Never c (Program.ret a : Program I ε α) := fun _ => id

theorem never_throw {e : ε} : Never c (Program.throw e : Program I ε α) := fun _ => id

theorem never_call {c' : I.Cmd} {next : I.Resp c' → Program I ε α} (hne : c' ≠ c)
    (hnext : ∀ x, Never c (next x)) : Never c (Program.call c' next) := by
  rintro h (⟨-, heq⟩ | ⟨x, h', -, hrest⟩)
  · exact hne heq
  · exact hnext x h' hrest

theorem never_bind {p : Program I ε α} {f : α → Program I ε β} (hp : Never c p)
    (hf : ∀ a, Never c (f a)) : Never c (p >>= f) := by
  intro h hcalls
  obtain hcalls | ⟨a, h₁, h₂, -, -, hcalls⟩ := calls_bind.mp hcalls
  · exact hp h hcalls
  · exact hf a h₂ hcalls

theorem never_attempt {p : Program I ε α} (hp : Never c p) :
    Never c (p.attempt : Program I ε' (Except ε α)) := fun h hcalls => hp h (calls_attempt.mp hcalls)

theorem never_ofExcept {x : Except ε α} : Never c (ofExcept x : Program I ε α) := by
  cases x with
  | ok a => exact never_ret
  | error e => exact never_throw

theorem never_ite {b : Prop} [Decidable b] {p q : Program I ε α} (hp : Never c p)
    (hq : Never c q) : Never c (if b then p else q) := by
  split
  · exact hp
  · exact hq

end Program

variable {S : System I}

/-- A thread that returns has come to the end of its program. -/
theorem Enabled.ends {tr : Trace S} {t : ℕ} {o : S.Out} {w w' : S.World}
    (h : Enabled tr ⟨t, w, .done o⟩ w') :
    w' = w ∧ ∃ q, Started t q tr ∧ (S.program q).Ends (own t tr) (.ok o) := by
  cases h with
  | done hq hpath _ =>
      refine ⟨rfl, _, hq, ?_⟩
      have hend : (Program.ret o : Program I S.Err S.Out).Ends [] (.ok o) := ⟨rfl, rfl⟩
      simpa using hpath.ends hend

/-- What a thread that has returned had done by then. -/
theorem Run.ends {A : Trace S → Entry S → Prop} {w : S.World} {tr : Trace S} (h : Run A w tr)
    {t : ℕ} {w₁ : S.World} {o : S.Out} (hdone : ⟨t, w₁, .done o⟩ ∈ tr) :
    ∃ post pre q, tr = post ++ ⟨t, w₁, .done o⟩ :: pre ∧ Run A w₁ pre ∧ Started t q pre ∧
      (S.program q).Ends (own t pre) (.ok o) := by
  obtain ⟨post, pre, _, rfl, hrun, -, hen⟩ := h.entry_of_mem hdone
  obtain ⟨-, q, hq, hends⟩ := hen.ends
  exact ⟨post, pre, q, rfl, hrun, hq, hends⟩

/-- A thread that has returned does nothing more. -/
theorem Run.returned_quiet (hinj : ∀ c x y, I.event c x = I.event c y → x = y)
    {A : Trace S → Entry S → Prop} {w w₁ : S.World} {post pre : Trace S} {t : ℕ} {o : S.Out}
    (h : Run A w (post ++ ⟨t, w₁, .done o⟩ :: pre)) : own t post = [] := by
  induction post generalizing w with
  | nil => rfl
  | cons x post ih =>
      have hsplit : Run A w ([] ++ x :: (post ++ ⟨t, w₁, .done o⟩ :: pre)) := h
      obtain ⟨hrun, -, w', hen⟩ := hsplit.entry
      have hquiet := ih hrun
      obtain ⟨-, -, _, hdone⟩ := hrun.entry
      cases hen with
      | start => exact hquiet
      | done => exact hquiet
      | @act t' q _ _ c next x hq hpath hact =>
          by_cases ht : t' = t
          · exfalso
            subst ht
            cases hdone with
            | @done _ q' _ _ hq' hpath' hopen =>
                obtain rfl := hrun.started_unique hq
                  (hq'.mono fun y hy => List.mem_append_right _ (List.mem_cons_of_mem _ hy))
                have hown : own t' (post ++ ⟨t', w₁, .done o⟩ :: pre) = own t' pre := by
                  rw [own_append, own_done, hquiet, List.nil_append]
                cases (hown ▸ hpath).functional hinj hpath'
          · rw [own_act_ne ht]
            exact hquiet

end Concurrent
