import ZeroTrustProxy.Concurrent.Sequential

/-!
One program after another.

`Executes S p w h r w'` says that the program `p`, executed from its beginning
to its end with nothing else going on, leads from one world to another, has
performed the events `h` and has come to `r`; time passes before, in between and
after. `Serial` puts executions one after the other. Such histories are what is
left of a run when no two of its threads overlap: `Run.serial`. A program can
also be executed where no system would start it, and it can be given up before
its end: `Performs`.
-/

namespace Concurrent

variable {I : Interface} {S : System I} {Q ε α β : Type} {w w' w₁ : S.World}
  {h h₁ h₂ : List I.Event}

/-! ### Invariants of a history -/

/-- The invariant rule for what depends on the events so far. An event may be
taken to know what has come before it. -/
theorem Sequential.history_invariant (hseq : Sequential S w h w')
    (J : List I.Event → S.World → Prop) (hbase : J [] w)
    (henv : ∀ m h₁ w₁ w₂, S.env m w₁ = some w₂ → J h₁ w₁ → J h₁ w₂)
    (hact : ∀ t e h₁ w₁ w₂, e :: h₁ <:+ h → S.act t e w₁ = some w₂ → J h₁ w₁ → J (e :: h₁) w₂) :
    J h w' := by
  induction hseq with
  | start => exact hbase
  | env m _ hm ih => exact henv m _ _ _ hm (ih hact)
  | act t _ hstep ih =>
      refine hact t _ _ _ _ List.suffix_rfl hstep (ih ?_)
      exact fun t e h₁ w₁ w₂ hsub => hact t e h₁ w₁ w₂ (hsub.trans (List.suffix_cons _ _))

namespace Program

/-- Every event on a path was licensed where it came. -/
theorem Path.licensed {L : List I.Event → I.Cmd → Prop} {p q : Program I ε α}
    {Q : α → List I.Event → Prop} {E : ε → List I.Event → Prop} (hpath : p.Path h q)
    (hp : p.Obeys L [] Q E) {e : I.Event} {h₁ h₂ : List I.Event} (hsplit : h = h₂ ++ e :: h₁) :
    L h₁ (I.command e) := by
  induction hpath generalizing h₂ with
  | start => simp at hsplit
  | @call h c next x hbefore ih =>
      cases h₂ with
      | nil =>
          obtain ⟨rfl, rfl⟩ := List.cons.inj hsplit
          rw [I.command_event]
          exact (hbefore.obeys hp).1
      | cons e' h₂ => exact ih (List.cons.inj hsplit).2

/-- A path after the first call of a program is a path of the program. -/
theorem Path.after_call {c : I.Cmd} {next : I.Resp c → Program I ε α} {x : I.Resp c}
    {q : Program I ε α} (hpath : (next x).Path h q) :
    (Program.call c next).Path (h ++ [I.event c x]) q := by
  induction hpath with
  | start => exact .call x .start
  | call y _ ih => exact .call y ih

/-- A program comes to its end on a path. -/
theorem Ends.path {p : Program I ε α} {r : Except ε α} (hend : p.Ends h r) : ∃ q, p.Path h q := by
  induction p generalizing h with
  | ret a =>
      obtain ⟨rfl, -⟩ := hend
      exact ⟨_, .start⟩
  | throw e =>
      obtain ⟨rfl, -⟩ := hend
      exact ⟨_, .start⟩
  | call c next ih =>
      obtain ⟨x, h', rfl, hrest⟩ := hend
      obtain ⟨q, hpath⟩ := ih x hrest
      exact ⟨q, hpath.after_call⟩

end Program

/-! ### Executions -/

/-- `p` is executed from its beginning to its end, with nothing else going on. -/
def Executes (S : System I) (p : Program I ε α) (w : S.World) (h : List I.Event) (r : Except ε α)
    (w' : S.World) : Prop :=
  ∃ t, Sequential (S.only t) w h w' ∧ p.Ends h r

/-- `p` is executed from its beginning, with nothing else going on, as far as the
events `h`. It has come to its end there, or is given up. -/
def Performs (S : System I) (p : Program I ε α) (w : S.World) (h : List I.Event) (w' : S.World) :
    Prop :=
  ∃ t q, Sequential (S.only t) w h w' ∧ p.Path h q

theorem Executes.performs {p : Program I ε α} {r : Except ε α} (hexec : Executes S p w h r w') :
    Performs S p w h w' := by
  obtain ⟨t, hseq, hend⟩ := hexec
  obtain ⟨q, hpath⟩ := hend.path
  exact ⟨t, q, hseq, hpath⟩

/-- The invariant rule for one program, with the licence of each event. -/
theorem Performs.invariant {p : Program I ε α} (hperf : Performs S p w h w')
    {L : List I.Event → I.Cmd → Prop} {Q : α → List I.Event → Prop} {E : ε → List I.Event → Prop}
    (hp : p.Obeys L [] Q E) (J : List I.Event → S.World → Prop) (hbase : J [] w)
    (henv : ∀ m h₁ w₁ w₂, S.env m w₁ = some w₂ → J h₁ w₁ → J h₁ w₂)
    (hact : ∀ t e h₁ w₁ w₂, L h₁ (I.command e) → S.act t e w₁ = some w₂ → J h₁ w₁ →
      J (e :: h₁) w₂) : J h w' := by
  obtain ⟨t, q, hseq, hpath⟩ := hperf
  refine hseq.history_invariant J hbase henv ?_
  intro _ e h₁ w₁ w₂ hsub hstep hJ
  obtain ⟨h₂, hsplit⟩ := hsub
  exact hact t e h₁ w₁ w₂ (hpath.licensed hp hsplit.symm) hstep hJ

/-! ### Histories of executions -/

/-- An execution of a history: what was asked, what it has done and what came of
it. -/
structure Execution (I : Interface) (Q ε α : Type) where
  req : Q
  history : List I.Event
  outcome : Except ε α

/-- Requests executed one after the other, newest first. -/
inductive Serial (S : System I) (program : Q → Program I ε α) (w : S.World) :
    List (Execution I Q ε α) → S.World → Prop
  | start : Serial S program w [] w
  | next {l : List (Execution I Q ε α)} {w₁ w₂ : S.World} {q : Q} {h : List I.Event}
      {r : Except ε α} (hserial : Serial S program w l w₁)
      (hexec : Executes S (program q) w₁ h r w₂) : Serial S program w (⟨q, h, r⟩ :: l) w₂

/-- The invariant rule for histories of executions. -/
theorem Serial.invariant {program : Q → Program I ε α} {l : List (Execution I Q ε α)}
    (hserial : Serial S program w l w') (J : List (Execution I Q ε α) → S.World → Prop)
    (hbase : J [] w)
    (hnext : ∀ l q h r w₁ w₂, Executes S (program q) w₁ h r w₂ → J l w₁ → J (⟨q, h, r⟩ :: l) w₂) :
    J l w' := by
  induction hserial with
  | start => exact hbase
  | next _ hexec ih => exact hnext _ _ _ _ _ _ hexec ih

/-- What has been asked, and what has been done for it as far as it has got. -/
structure Episode (I : Interface) (Q : Type) where
  req : Q
  history : List I.Event

/-! ### Runs without overlap -/

/-- Where nothing happens, it does not matter who does it. -/
theorem Sequential.idle {f : ℕ → I.Event → S.World → Option S.World} (hseq : Sequential S w [] w') :
    Sequential { S with act := f } w [] w' := by
  generalize hnil : ([] : List I.Event) = h at hseq
  induction hseq with
  | start => exact .start
  | env m _ hm ih => exact .env m (ih hnil) hm
  | act t _ _ _ => simp at hnil

/-- What one thread does alone, from the world that the step before leaves. -/
theorem Run.alone_after {A : Trace S → Entry S → Prop} {t : ℕ} {x : Entry S} {seg tr : Trace S}
    (hrun : Run A w (seg ++ x :: tr)) (halone : ∀ y ∈ seg, y.tid = t) :
    ∃ w₁, Enabled tr x w₁ ∧ Sequential (S.only t) w₁ (own t seg) w := by
  generalize hall : seg ++ x :: tr = all at hrun
  induction hrun generalizing seg with
  | init hinit => simp at hall
  | env m _ hm ih =>
      obtain ⟨w₁, hen, hseq⟩ := ih halone hall
      exact ⟨w₁, hen, .env m hseq hm⟩
  | @step w₂ all y hrun hen hA ih =>
      cases seg with
      | nil =>
          obtain ⟨rfl, rfl⟩ := List.cons.inj hall
          exact ⟨w₂, hen, .start⟩
      | cons z seg =>
          obtain ⟨rfl, rfl⟩ := List.cons.inj hall
          obtain ⟨w₁, hfirst, hseq⟩ := ih (fun y hy => halone y (List.mem_cons_of_mem _ hy)) rfl
          obtain rfl := halone z List.mem_cons_self
          refine ⟨w₁, hfirst, ?_⟩
          cases hen with
          | start => exact hseq
          | act r _ _ hact =>
              rw [own_act_self]
              exact .act 0 hseq hact
          | done => exact hseq

/-- The requests of a stretch of a run come one after the other: each thread is
alone from its start to its return. -/
inductive OneByOne : Trace S → List (Execution I S.Req S.Err S.Out) → Prop
  | nil : OneByOne [] []
  | next {seg tr : Trace S} {l : List (Execution I S.Req S.Err S.Out)} {t : ℕ} {w₀ w₁ : S.World}
      {q : S.Req} {o : S.Out} (hearlier : OneByOne tr l) (halone : ∀ x ∈ seg, x.tid = t) :
      OneByOne (⟨t, w₁, .done o⟩ :: (seg ++ ⟨t, w₀, .start q⟩ :: tr)) (⟨q, own t seg, .ok o⟩ :: l)

/-- **A stretch of a run without overlap is one execution after the other.** -/
theorem Run.serial {A : Trace S → Entry S → Prop} {seg tr : Trace S}
    {l : List (Execution I S.Req S.Err S.Out)} (hone : OneByOne seg l)
    (hrun : Run A w (seg ++ tr)) :
    ∃ w₀ w₁, Run A w₀ tr ∧ Serial S S.program w₀ l w₁ ∧ Sequential S w₁ [] w := by
  induction hone generalizing w with
  | nil =>
      obtain ⟨w₀, hrun₀, hseq⟩ := hrun.sequential
      exact ⟨w₀, w₀, hrun₀, .start, hseq⟩
  | @next seg tr₁ l t w₂ w₃ q o _ halone ih =>
      rw [List.cons_append, List.append_assoc, List.cons_append] at hrun
      have hsplit : Run A w ([] ++ ⟨t, w₃, .done o⟩ :: (seg ++ ⟨t, w₂, .start q⟩ :: (tr₁ ++ tr))) :=
        hrun
      obtain ⟨w₄, hdone, hafter⟩ := hsplit.alone_after (t := t) (by simp)
      obtain ⟨rfl, q', hq', hends⟩ := hdone.ends
      obtain ⟨hrun₃, -, -⟩ := hsplit.entry
      have hq : Started t q (seg ++ ⟨t, w₂, .start q⟩ :: (tr₁ ++ tr)) := ⟨w₂, by simp⟩
      obtain rfl := hrun₃.started_unique hq' hq
      obtain ⟨hrun₂, -, -⟩ := hrun₃.entry
      obtain ⟨w₀, w₁, hrun₀, hserial, hbefore⟩ := ih hrun₂
      obtain ⟨w₅, hstart, hseq⟩ := hrun₃.alone_after halone
      cases hstart with
      | start hfresh =>
          rw [own_append, own_start, own_eq_nil hfresh, List.append_nil] at hends
          have hpassed : Sequential (S.only t) w₁ [] w₂ := hbefore.idle
          have hall := hpassed.append hseq
          rw [List.append_nil] at hall
          exact ⟨w₀, w₄, hrun₀, .next hserial ⟨t, hall, hends⟩, hafter.idle⟩

/-! ### Playing executions -/

theorem Sequential.cons {t : ℕ} {e : I.Event} (hact : S.act t e w = some w₁)
    (hrest : Sequential S w₁ h w') : Sequential S w (h ++ [e]) w' :=
  Sequential.append (.act t .start hact) hrest

/-- Execute a program in a system whose replies are computed, with no time
passing. -/
def Program.exec (S : System I) (reply : (c : I.Cmd) → S.World → Option (I.Resp c)) :
    Program I ε α → S.World → Option (List I.Event × Except ε α × S.World)
  | .ret a, w => some ([], .ok a, w)
  | .throw e, w => some ([], .error e, w)
  | .call c next, w =>
      (reply c w).bind fun x =>
        (S.act 0 (I.event c x) w).bind fun w₁ =>
          ((next x).exec S reply w₁).map fun y => (y.1 ++ [I.event c x], y.2)

theorem Program.exec_sound {reply : (c : I.Cmd) → S.World → Option (I.Resp c)} {p : Program I ε α}
    {r : Except ε α} (hexec : p.exec S reply w = some (h, r, w')) : Executes S p w h r w' := by
  refine ⟨0, ?_⟩
  induction p generalizing w h with
  | ret a =>
      obtain ⟨rfl, rfl, rfl⟩ : [] = h ∧ Except.ok a = r ∧ w = w' := by simpa [exec] using hexec
      exact ⟨.start, rfl, rfl⟩
  | throw e =>
      obtain ⟨rfl, rfl, rfl⟩ : [] = h ∧ Except.error e = r ∧ w = w' := by simpa [exec] using hexec
      exact ⟨.start, rfl, rfl⟩
  | call c next ih =>
      obtain ⟨x, -, hreplied⟩ := Option.bind_eq_some_iff.mp hexec
      obtain ⟨w₁, hact, hlater⟩ := Option.bind_eq_some_iff.mp hreplied
      obtain ⟨⟨h', r', w₂⟩, hrest, heq⟩ := Option.map_eq_some_iff.mp hlater
      obtain ⟨rfl, rfl, rfl⟩ : h' ++ [I.event c x] = h ∧ r' = r ∧ w₂ = w' := by simpa using heq
      obtain ⟨hseq, hend⟩ := ih x hrest
      exact ⟨hseq.cons (t := 0) hact, x, h', rfl, hend⟩

/-- Execute a list of requests, newest first, one after the other. -/
def execAll (S : System I) (reply : (c : I.Cmd) → S.World → Option (I.Resp c))
    (program : Q → Program I ε α) (w : S.World) :
    List Q → Option (List (Execution I Q ε α) × S.World)
  | [] => some ([], w)
  | q :: qs =>
      (execAll S reply program w qs).bind fun x =>
        ((program q).exec S reply x.2).map fun y => (⟨q, y.1, y.2.1⟩ :: x.1, y.2.2)

theorem execAll_sound {reply : (c : I.Cmd) → S.World → Option (I.Resp c)}
    {program : Q → Program I ε α} {qs : List Q} {l : List (Execution I Q ε α)}
    (hexec : execAll S reply program w qs = some (l, w')) : Serial S program w l w' := by
  induction qs generalizing l w' with
  | nil =>
      obtain ⟨rfl, rfl⟩ : [] = l ∧ w = w' := by simpa [execAll] using hexec
      exact .start
  | cons q qs ih =>
      obtain ⟨⟨l₁, w₁⟩, hearlier, hmapped⟩ := Option.bind_eq_some_iff.mp hexec
      obtain ⟨⟨h, r, w₂⟩, hlast, heq⟩ := Option.map_eq_some_iff.mp hmapped
      obtain ⟨rfl, rfl⟩ : ⟨q, h, r⟩ :: l₁ = l ∧ w₂ = w' := by simpa using heq
      exact .next (ih hearlier) (Program.exec_sound hlast)

end Concurrent
