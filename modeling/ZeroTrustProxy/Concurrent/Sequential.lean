import ZeroTrustProxy.Concurrent.Outcome

/-!
One event after another.

`Sequential S w h w'` says that the events `h` lead from one world to another,
whoever performs them, while time passes in between. Programs that are executed
one after the other put their histories one after the other, so an execution of
two programs is cut where the second begins: `Sequential.append_iff`. What
happens in a stretch of a run is such an execution: `Run.sequential`.
-/

namespace Concurrent

variable {I : Interface} {S : System I}

/-- The events, newest first, lead from `w` to the world of the index. -/
inductive Sequential (S : System I) (w : S.World) : List I.Event → S.World → Prop
  | start : Sequential S w [] w
  | env {h : List I.Event} {w₁ w₂ : S.World} (m : S.Env) (hseq : Sequential S w h w₁)
      (hm : S.env m w₁ = some w₂) : Sequential S w h w₂
  | act {h : List I.Event} {e : I.Event} {w₁ w₂ : S.World} (t : ℕ) (hseq : Sequential S w h w₁)
      (hact : S.act t e w₁ = some w₂) : Sequential S w (e :: h) w₂

variable {w w' w₁ : S.World} {h h₁ h₂ : List I.Event} {e : I.Event}

namespace Sequential

theorem append (hfirst : Sequential S w h₁ w₁) (hsecond : Sequential S w₁ h₂ w') :
    Sequential S w (h₂ ++ h₁) w' := by
  induction hsecond with
  | start => exact hfirst
  | env m _ hm ih => exact .env m ih hm
  | act t _ hact ih => exact .act t ih hact

/-- Two histories one after the other, cut where the second begins. -/
theorem append_iff :
    Sequential S w (h₂ ++ h₁) w' ↔ ∃ w₁, Sequential S w h₁ w₁ ∧ Sequential S w₁ h₂ w' := by
  constructor
  · intro hseq
    generalize hall : h₂ ++ h₁ = l at hseq
    induction hseq generalizing h₂ with
    | start =>
        obtain ⟨rfl, rfl⟩ := List.append_eq_nil_iff.mp hall
        exact ⟨w, .start, .start⟩
    | env m _ hm ih =>
        obtain ⟨w₁, hfirst, hsecond⟩ := ih hall
        exact ⟨w₁, hfirst, .env m hsecond hm⟩
    | @act l e w₁ w₂ t hrest hact ih =>
        cases h₂ with
        | nil =>
            obtain rfl : h₁ = e :: l := hall
            exact ⟨w₂, .act t hrest hact, .start⟩
        | cons e' h₂ =>
            obtain ⟨rfl, rfl⟩ := List.cons.inj hall
            obtain ⟨w₃, hfirst, hsecond⟩ := ih rfl
            exact ⟨w₃, hfirst, .act t hsecond hact⟩
  · rintro ⟨w₁, hfirst, hsecond⟩
    exact hfirst.append hsecond

/-- The last event of a history, with what has passed since. -/
theorem last (hseq : Sequential S w (e :: h) w') :
    ∃ t w₁ w₂, Sequential S w h w₁ ∧ S.act t e w₁ = some w₂ ∧ Sequential S w₂ [] w' := by
  generalize hall : e :: h = l at hseq
  induction hseq with
  | start => simp at hall
  | env m _ hm ih =>
      obtain ⟨t, w₁, w₂, hfirst, hact, hlast⟩ := ih hall
      exact ⟨t, w₁, w₂, hfirst, hact, .env m hlast hm⟩
  | act t hrest hact _ =>
      obtain ⟨rfl, rfl⟩ := List.cons.inj hall
      exact ⟨t, _, _, hrest, hact, .start⟩

/-- The invariant rule: what the passing of time and the events of the history
keep is kept. -/
theorem invariant (hseq : Sequential S w h w') (J : S.World → Prop) (hbase : J w)
    (henv : ∀ m w₁ w₂, S.env m w₁ = some w₂ → J w₁ → J w₂)
    (hact : ∀ t e w₁ w₂, e ∈ h → S.act t e w₁ = some w₂ → J w₁ → J w₂) : J w' := by
  induction hseq with
  | start => exact hbase
  | env m _ hm ih => exact henv m _ _ hm (ih hact)
  | act t _ hstep ih =>
      have hrest := ih fun t e w₁ w₂ he => hact t e w₁ w₂ (List.mem_cons_of_mem _ he)
      exact hact t _ _ _ List.mem_cons_self hstep hrest

end Sequential

/-- The system in which one thread performs every event. -/
@[reducible] def System.only (S : System I) (t : ℕ) : System I :=
  { S with act := fun _ => S.act t }

/-- The events of a stretch of a run, of all threads. -/
def performed : Trace S → List I.Event
  | [] => []
  | ⟨_, _, .act e⟩ :: tr => e :: performed tr
  | _ :: tr => performed tr

theorem mem_performed {seg : Trace S} :
    e ∈ performed seg ↔ ∃ t w, (⟨t, w, .act e⟩ : Entry S) ∈ seg := by
  induction seg with
  | nil => simp [performed]
  | cons x seg ih =>
      obtain ⟨t', w', item⟩ := x
      cases item with
      | start q => simp [performed, ih]
      | act e' =>
          simp only [performed, List.mem_cons, ih, Entry.mk.injEq, Item.act.injEq]
          constructor
          · rintro (rfl | ⟨t, w, hmem⟩)
            · exact ⟨t', w', .inl ⟨rfl, rfl, rfl⟩⟩
            · exact ⟨t, w, .inr hmem⟩
          · rintro ⟨t, w, ⟨-, -, rfl⟩ | hmem⟩
            · exact .inl rfl
            · exact .inr ⟨t, w, hmem⟩
      | done o => simp [performed, ih]

/-- Where one thread is alone, what happens is its history. -/
theorem own_eq_performed {t : ℕ} {seg : Trace S} (halone : ∀ x ∈ seg, x.tid = t) :
    own t seg = performed seg := by
  induction seg with
  | nil => rfl
  | cons x seg ih =>
      have hrest := ih fun y hy => halone y (List.mem_cons_of_mem _ hy)
      obtain ⟨t', w', item⟩ := x
      obtain rfl : t' = t := halone _ List.mem_cons_self
      cases item with
      | start q => exact hrest
      | act e => rw [own_act_self, hrest, performed]
      | done o => exact hrest

/-- A stretch of a run, in a system in which the same events do the same. -/
theorem Run.sequential_as {A : Trace S → Entry S → Prop} {seg tr : Trace S}
    {f : ℕ → I.Event → S.World → Option S.World} (hrun : Run A w (seg ++ tr))
    (hf : ∀ x ∈ seg, ∃ t, f t = S.act x.tid) :
    ∃ w₀, Run A w₀ tr ∧ Sequential { S with act := f } w₀ (performed seg) w := by
  generalize hall : seg ++ tr = all at hrun
  induction hrun generalizing seg with
  | init hinit =>
      obtain ⟨rfl, rfl⟩ := List.append_eq_nil_iff.mp hall
      exact ⟨_, .init hinit, .start⟩
  | env m _ hm ih =>
      obtain ⟨w₀, hrun₀, hseq⟩ := ih hf hall
      exact ⟨w₀, hrun₀, .env m hseq hm⟩
  | @step w₂ all x hrun hen hA ih =>
      cases seg with
      | nil =>
          obtain rfl : tr = x :: all := hall
          exact ⟨w₂, .step hrun hen hA, .start⟩
      | cons y seg =>
          obtain ⟨rfl, rfl⟩ := List.cons.inj hall
          obtain ⟨w₀, hrun₀, hseq⟩ := ih (fun z hz => hf z (List.mem_cons_of_mem _ hz)) rfl
          obtain ⟨t, ht⟩ := hf y List.mem_cons_self
          refine ⟨w₀, hrun₀, ?_⟩
          cases hen with
          | start => exact hseq
          | act r _ _ hact =>
              rw [← ht] at hact
              exact .act t hseq hact
          | done => exact hseq

/-- **A stretch of a run is one event after another.** -/
theorem Run.sequential {A : Trace S → Entry S → Prop} {seg tr : Trace S}
    (hrun : Run A w (seg ++ tr)) : ∃ w₀, Run A w₀ tr ∧ Sequential S w₀ (performed seg) w :=
  hrun.sequential_as fun x _ => ⟨x.tid, rfl⟩

/-- Where one thread is alone, they are the events of its history. -/
theorem Run.sequential_only {A : Trace S → Entry S → Prop} {seg tr : Trace S} {t : ℕ}
    (hrun : Run A w (seg ++ tr)) (halone : ∀ x ∈ seg, x.tid = t) :
    ∃ w₀, Run A w₀ tr ∧ Sequential (S.only t) w₀ (own t seg) w := by
  rw [own_eq_performed halone]
  exact hrun.sequential_as fun x hx => ⟨0, by rw [halone x hx]⟩

end Concurrent
