import Mathlib.Data.List.Basic

/-!
Programs that work by calling an environment they do not control.

A request handler of a server is sequential code between calls to shared
services: stores, clocks, sources of randomness. Everything such a handler
can do to the rest of the system it does through these calls, and everything
it knows of the rest of the system it knows from their replies. `Program` is
that view of a handler: a tree that is a result, an exception, or a call
together with a continuation for every possible reply.

The proof rule of the file is `Program.Obeys`. A program is followed along
all its branches, with the list of the events it has performed so far, and
two questions are asked: is every call it makes licensed by what it has seen,
and is every result it returns justified by it. Nothing is assumed about the
replies, so the answers hold under every schedule and against every
environment; what the replies can be is the business of the run.
-/

namespace Concurrent

/-- The calls a program may make, the type of the reply to each, and the
event that a call and its reply leave in the history. An event tells which
call it is of. -/
structure Interface where
  Cmd : Type
  Resp : Cmd → Type
  Event : Type
  event : (c : Cmd) → Resp c → Event
  command : Event → Cmd
  command_event : ∀ c r, command (event c r) = c

/-- A sequential program over an interface, with exceptions of type `ε`. -/
inductive Program (I : Interface) (ε α : Type) where
  | ret (a : α)
  | throw (e : ε)
  | call (c : I.Cmd) (next : I.Resp c → Program I ε α)

namespace Program

variable {I : Interface} {ε ε' α β : Type}

protected def bind : Program I ε α → (α → Program I ε β) → Program I ε β
  | .ret a, f => f a
  | .throw e, _ => .throw e
  | .call c next, f => .call c fun r => (next r).bind f

instance : Monad (Program I ε) where
  pure := .ret
  bind := Program.bind

/-- A single call whose reply is the result. -/
def perform (c : I.Cmd) : Program I ε (I.Resp c) := .call c .ret

/-- Run `p` and hand over its outcome, result or exception, as a value. -/
def attempt : Program I ε α → Program I ε' (Except ε α)
  | .ret a => .ret (.ok a)
  | .throw e => .ret (.error e)
  | .call c next => .call c fun r => (next r).attempt

def ofExcept : Except ε α → Program I ε α
  | .ok a => .ret a
  | .error e => .throw e

/-! ### What a program may have done so far

Histories are kept with the newest event first: a step of a program puts its
event in front. -/

/-- `Path p h q`: starting as `p`, a program can perform the events `h` and
then continue as `q`. -/
inductive Path (p : Program I ε α) : List I.Event → Program I ε α → Prop
  | start : Path p [] p
  | call {h : List I.Event} {c : I.Cmd} {next : I.Resp c → Program I ε α}
      (r : I.Resp c) : Path p h (.call c next) → Path p (I.event c r :: h) (next r)

/-! ### Following a program along all its branches -/

/-- `p.Obeys L h Q E`: from the history `h`, every call that `p` makes is
licensed by `L` at the history in which it is made, every result satisfies
`Q` and every exception satisfies `E` at the history in which it comes. -/
def Obeys (L : List I.Event → I.Cmd → Prop) (p : Program I ε α) (h : List I.Event)
    (Q : α → List I.Event → Prop) (E : ε → List I.Event → Prop) : Prop :=
  match p with
  | .ret a => Q a h
  | .throw e => E e h
  | .call c next => L h c ∧ ∀ r, (next r).Obeys L (I.event c r :: h) Q E

variable {L : List I.Event → I.Cmd → Prop} {h : List I.Event}

@[simp] theorem obeys_ret {a : α} {Q : α → List I.Event → Prop}
    {E : ε → List I.Event → Prop} :
    (Program.ret a : Program I ε α).Obeys L h Q E ↔ Q a h := Iff.rfl

@[simp] theorem obeys_pure {a : α} {Q : α → List I.Event → Prop}
    {E : ε → List I.Event → Prop} :
    (pure a : Program I ε α).Obeys L h Q E ↔ Q a h := Iff.rfl

@[simp] theorem obeys_throw {e : ε} {Q : α → List I.Event → Prop}
    {E : ε → List I.Event → Prop} :
    (Program.throw e : Program I ε α).Obeys L h Q E ↔ E e h := Iff.rfl

@[simp] theorem obeys_call {c : I.Cmd} {next : I.Resp c → Program I ε α}
    {Q : α → List I.Event → Prop} {E : ε → List I.Event → Prop} :
    (Program.call c next).Obeys L h Q E ↔
      L h c ∧ ∀ r, (next r).Obeys L (I.event c r :: h) Q E := Iff.rfl

@[simp] theorem obeys_perform {c : I.Cmd} {Q : I.Resp c → List I.Event → Prop}
    {E : ε → List I.Event → Prop} :
    (perform c : Program I ε (I.Resp c)).Obeys L h Q E ↔
      L h c ∧ ∀ r, Q r (I.event c r :: h) := Iff.rfl

@[simp] theorem obeys_ofExcept {x : Except ε α} {Q : α → List I.Event → Prop}
    {E : ε → List I.Event → Prop} :
    (ofExcept x : Program I ε α).Obeys L h Q E ↔
      (∀ a, x = .ok a → Q a h) ∧ ∀ e, x = .error e → E e h := by
  cases x <;> simp [ofExcept]

@[simp] theorem obeys_ite {c : Prop} [Decidable c] {p q : Program I ε α}
    {Q : α → List I.Event → Prop} {E : ε → List I.Event → Prop} :
    (if c then p else q).Obeys L h Q E ↔
      (c → p.Obeys L h Q E) ∧ (¬ c → q.Obeys L h Q E) := by
  by_cases hc : c <;> simp [hc]

/-- Sequencing: the second program is followed from every result of the
first, at the history in which that result comes. -/
theorem obeys_bind {p : Program I ε α} {f : α → Program I ε β}
    {Q : β → List I.Event → Prop} {E : ε → List I.Event → Prop} :
    (p >>= f).Obeys L h Q E ↔ p.Obeys L h (fun a h' => (f a).Obeys L h' Q E) E := by
  change (p.bind f).Obeys L h Q E ↔ _
  induction p generalizing h with
  | ret a => exact Iff.rfl
  | throw e => exact Iff.rfl
  | call c next ih =>
      simp only [Program.bind, obeys_call]
      exact and_congr_right fun _ => forall_congr' fun r => ih r

/-- An attempt never raises: both outcomes of `p` are results of it. -/
theorem obeys_attempt {p : Program I ε α} {Q : Except ε α → List I.Event → Prop}
    {E : ε' → List I.Event → Prop} :
    (p.attempt : Program I ε' (Except ε α)).Obeys L h Q E ↔
      p.Obeys L h (fun a => Q (.ok a)) (fun e => Q (.error e)) := by
  induction p generalizing h with
  | ret a => exact Iff.rfl
  | throw e => exact Iff.rfl
  | call c next ih =>
      simp only [attempt, obeys_call]
      exact and_congr_right fun _ => forall_congr' fun r => ih r

/-- Weaker licences and weaker conclusions may be taken at any point. -/
theorem Obeys.mono {L' : List I.Event → I.Cmd → Prop} {p : Program I ε α}
    {Q Q' : α → List I.Event → Prop} {E E' : ε → List I.Event → Prop}
    (hp : p.Obeys L h Q E) (hL : ∀ h c, L h c → L' h c)
    (hQ : ∀ a h', Q a h' → Q' a h') (hE : ∀ e h', E e h' → E' e h') :
    p.Obeys L' h Q' E' := by
  induction p generalizing h with
  | ret a => exact hQ _ _ hp
  | throw e => exact hE _ _ hp
  | call c next ih => exact ⟨hL _ _ hp.1, fun r => ih r (hp.2 r)⟩

/-- The form of `Obeys.mono` that proofs of sequential code use: the licence
stays, the conclusions are weakened. -/
theorem Obeys.conseq {p : Program I ε α} {Q Q' : α → List I.Event → Prop}
    {E E' : ε → List I.Event → Prop} (hp : p.Obeys L h Q E)
    (hQ : ∀ a h', Q a h' → Q' a h') (hE : ∀ e h', E e h' → E' e h') :
    p.Obeys L h Q' E' :=
  hp.mono (fun _ _ => id) hQ hE

/-- Two licences and two conclusions that hold of one program hold together. -/
theorem Obeys.and {L' : List I.Event → I.Cmd → Prop} {p : Program I ε α}
    {Q Q' : α → List I.Event → Prop} {E E' : ε → List I.Event → Prop}
    (hp : p.Obeys L h Q E) (hp' : p.Obeys L' h Q' E') :
    p.Obeys (fun h c => L h c ∧ L' h c) h (fun a h' => Q a h' ∧ Q' a h')
      (fun e h' => E e h' ∧ E' e h') := by
  induction p generalizing h with
  | ret a => exact ⟨hp, hp'⟩
  | throw e => exact ⟨hp, hp'⟩
  | call c next ih => exact ⟨⟨hp.1, hp'.1⟩, fun r => ih r (hp.2 r) (hp'.2 r)⟩

/-- What is left of a program after a path is followed from the history of
that path. -/
theorem Path.obeys {p q : Program I ε α} {Q : α → List I.Event → Prop}
    {E : ε → List I.Event → Prop} (hpath : Path p h q) (hp : p.Obeys L [] Q E) :
    q.Obeys L h Q E := by
  induction hpath with
  | start => exact hp
  | call r _ ih => exact ih.2 r

end Program

end Concurrent
