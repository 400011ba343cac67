import ZeroTrustProxy.Concurrent.Outcome

/-!
Which calls a program makes, and which errors it raises.

`p.Uses P` says that every call `p` can come to is one of `P`, whatever it has been
replied, and `p.Raises P` that every error it can end with is. They are the coarsest of
the views of a program, and the cheapest: the rules go by the constructs, and the parts
of a program that do not talk to a collaborator drop out of every question about it.
-/

namespace Concurrent

namespace Program

variable {I : Interface} {ε ε' α β : Type} {P P' : I.Cmd → Prop} {c : I.Cmd}
  {h : List I.Event}

/-- The calls of `p` are of the kind `P`. -/
def Uses (P : I.Cmd → Prop) (p : Program I ε α) : Prop := ∀ h c, p.Calls h c → P c

theorem Uses.mono {p : Program I ε α} (hp : p.Uses P) (hsub : ∀ c, P c → P' c) : p.Uses P' :=
  fun h c hcalls => hsub c (hp h c hcalls)

theorem Uses.never {p : Program I ε α} (hp : p.Uses P) (hc : ¬ P c) : Never c p :=
  fun h hcalls => hc (hp h c hcalls)

theorem uses_ret {a : α} : (Program.ret a : Program I ε α).Uses P := fun _ _ => False.elim

theorem uses_throw {e : ε} : (Program.throw e : Program I ε α).Uses P := fun _ _ => False.elim

theorem uses_call {next : I.Resp c → Program I ε α} (hc : P c) (hnext : ∀ x, (next x).Uses P) :
    (Program.call c next).Uses P := by
  rintro h c' (⟨-, rfl⟩ | ⟨x, h', -, hrest⟩)
  · exact hc
  · exact hnext x h' c' hrest

theorem uses_bind {p : Program I ε α} {f : α → Program I ε β} (hp : p.Uses P)
    (hf : ∀ a, (f a).Uses P) : (p >>= f).Uses P := by
  intro h c hcalls
  obtain hcalls | ⟨a, h₁, h₂, -, -, hcalls⟩ := calls_bind.mp hcalls
  · exact hp h c hcalls
  · exact hf a h₂ c hcalls

theorem uses_attempt {p : Program I ε α} (hp : p.Uses P) :
    (p.attempt : Program I ε' (Except ε α)).Uses P :=
  fun h c hcalls => hp h c (calls_attempt.mp hcalls)

theorem uses_ofExcept {x : Except ε α} : (ofExcept x : Program I ε α).Uses P := by
  cases x with
  | ok a => exact uses_ret
  | error e => exact uses_throw

theorem uses_ite {b : Prop} [Decidable b] {p q : Program I ε α} (hp : p.Uses P) (hq : q.Uses P) :
    (if b then p else q).Uses P := by
  split
  · exact hp
  · exact hq

/-- A call that is come to is one that can be made next. -/
theorem exists_path {p : Program I ε α} (hcalls : p.Calls h c) :
    ∃ next, Path p h (.call c next) := by
  have hextend {c' : I.Cmd} {next : I.Resp c' → Program I ε α} {x : I.Resp c'} {h : List I.Event}
      {q : Program I ε α} (hpath : Path (next x) h q) :
      Path (.call c' next) (h ++ [I.event c' x]) q := by
    induction hpath with
    | start => exact .call x .start
    | call y _ ih => exact .call y ih
  induction p generalizing h with
  | ret a => exact hcalls.elim
  | throw e => exact hcalls.elim
  | call c' next ih =>
      obtain ⟨rfl, rfl⟩ | ⟨x, h', rfl, hrest⟩ := hcalls
      · exact ⟨next, .start⟩
      · obtain ⟨next', hpath⟩ := ih x hrest
        exact ⟨next', hextend hpath⟩

/-- The events on a path are of the calls of the program. -/
theorem Uses.path {p q : Program I ε α} (hp : p.Uses P) (hpath : Path p h q) :
    ∀ e ∈ h, P (I.command e) := by
  induction hpath with
  | start => simp
  | @call h c next x hpath ih =>
      have hcalls : p.Calls ([] ++ h) c := hpath.calls (.inl ⟨rfl, rfl⟩)
      intro e he
      obtain rfl | he := List.mem_cons.mp he
      · rw [I.command_event]
        exact hp h c hcalls
      · exact ih e he

/-- The events of a program that has ended are of its calls. -/
theorem Uses.ends {p : Program I ε α} (hp : p.Uses P) {r : Except ε α} (hend : p.Ends h r) :
    ∀ e ∈ h, P (I.command e) := by
  induction p generalizing h with
  | ret a =>
      obtain ⟨rfl, -⟩ := hend
      simp
  | throw e =>
      obtain ⟨rfl, -⟩ := hend
      simp
  | call c next ih =>
      obtain ⟨x, h', rfl, hrest⟩ := hend
      have hnext : (next x).Uses P := fun l c' hcalls =>
        hp _ c' (calls_call.mpr (.inr ⟨x, l, rfl, hcalls⟩))
      intro e he
      obtain he | he := List.mem_append.mp he
      · exact ih x hnext hrest e he
      · obtain rfl := List.mem_singleton.mp he
        rw [I.command_event]
        exact hp [] c (.inl ⟨rfl, rfl⟩)

/-! ### Errors -/

variable {E : ε → Prop}

/-- The errors of `p` are of the kind `E`. -/
def Raises (E : ε → Prop) (p : Program I ε α) : Prop := ∀ h e, p.Ends h (.error e) → E e

theorem raises_ret {a : α} : (Program.ret a : Program I ε α).Raises E := by
  rintro h e ⟨-, heq⟩
  simp at heq

theorem raises_throw {e : ε} (he : E e) : (Program.throw e : Program I ε α).Raises E := by
  rintro h e' ⟨-, heq⟩
  exact Except.error.inj heq ▸ he

theorem raises_call {next : I.Resp c → Program I ε α} (hnext : ∀ x, (next x).Raises E) :
    (Program.call c next).Raises E := by
  rintro h e ⟨x, h', -, hend⟩
  exact hnext x h' e hend

theorem raises_bind {p : Program I ε α} {f : α → Program I ε β} (hp : p.Raises E)
    (hf : ∀ a, (f a).Raises E) : (p >>= f).Raises E := by
  intro h e hend
  obtain ⟨a, h₁, h₂, -, -, hlast⟩ | ⟨e', heq, hfirst⟩ := ends_bind.mp hend
  · exact hf a h₂ e hlast
  · exact Except.error.inj heq ▸ hp h e' hfirst

theorem raises_ite {b : Prop} [Decidable b] {p q : Program I ε α} (hp : p.Raises E)
    (hq : q.Raises E) : (if b then p else q).Raises E := by
  by_cases hb : b
  · simpa [hb] using hp
  · simpa [hb] using hq

/-! ### The calls themselves as a contract -/

theorem calls_ite {b : Prop} [Decidable b] {p q : Program I ε α} :
    (if b then p else q).Calls h c ↔ b ∧ p.Calls h c ∨ ¬ b ∧ q.Calls h c := by
  by_cases hb : b <;> simp [hb]

/-- A program obeys what holds of its calls and of its ends. -/
theorem obeys_calls {p : Program I ε α} {L : List I.Event → I.Cmd → Prop}
    {Q : α → List I.Event → Prop} {l : List I.Event}
    (hL : ∀ h c, p.Calls h c → L (h ++ l) c) (hQ : ∀ h a, p.Ends h (.ok a) → Q a (h ++ l)) :
    p.Obeys L l Q fun _ _ => True := by
  induction p generalizing l with
  | ret a => exact hQ [] a ⟨rfl, rfl⟩
  | throw e => exact trivial
  | call c next ih =>
      refine ⟨hL [] c (.inl ⟨rfl, rfl⟩), fun x => ih x ?_ ?_⟩
      · intro h c' hcalls
        have hlater := hL (h ++ [I.event c x]) c' (.inr ⟨x, h, rfl, hcalls⟩)
        simpa using hlater
      · intro h a hend
        have hlater := hQ (h ++ [I.event c x]) a ⟨x, h, rfl, hend⟩
        simpa using hlater

end Program

/-- What a thread calls its program has come to, and what it returns its program has
ended with. -/
theorem calls_contract (S : System I) :
    Contract S (fun q h c => (S.program q).Calls h c) fun q o h => (S.program q).Ends h (.ok o) :=
  fun _ => Program.obeys_calls (fun h c hcalls => by simpa using hcalls)
    fun h o hend => by simpa using hend

end Concurrent
