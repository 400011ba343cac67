import ZeroTrustProxy.Concurrent.Run

/-!
A component of a system.

The requests of a system may all go through a small component that has a part of the
world for itself: a counter, a lock, a cache. `Projection S S'` says that `S'` is such
a component of `S`. The events of the component are seen in it, all the others leave
its part of the world alone, and a thread of `S` that performs an event of the
component has come to the same call as the program of the component would have. A run
of `S` is then a run of `S'` with steps in between that `S'` does not see, and what is
proved of the component holds in the system.
-/

namespace Concurrent

variable {I : Interface} {S S' : System I}

/-- `S'` is the component of `S` whose events are those that `sees` holds of. -/
structure Projection (S S' : System I) where
  sees : I.Event → Bool
  /-- The requests that go through the component, and what they ask of it. -/
  request : S.Req → Option S'.Req
  rel : S.World → S'.World → Prop
  init : ∀ {w}, S.init w → ∃ w', S'.init w' ∧ rel w w'
  env : ∀ {m w w₁ w'}, rel w w' → S.env m w = some w₁ →
    ∃ m' w₁', S'.env m' w' = some w₁' ∧ rel w₁ w₁'
  head : ∀ {q h c next} (r : I.Resp c), (S.program q).Path h (.call c next) →
    sees (I.event c r) = true →
    ∃ q' next', request q = some q' ∧ (S'.program q').Path (h.filter sees) (.call c next')
  act : ∀ {t e w w₁ w'}, rel w w' → sees e = true → S.act t e w = some w₁ →
    ∃ w₁', S'.act t e w' = some w₁' ∧ rel w₁ w₁'
  skip : ∀ {t q h c next w w₁ w'} (r : I.Resp c), rel w w' →
    (S.program q).Path h (.call c next) → sees (I.event c r) = false →
    S.act t (I.event c r) w = some w₁ → rel w₁ w'

/-- The trace of the component that a trace of the system contains. -/
inductive Projects (P : Projection S S') : Trace S → Trace S' → Prop
  | nil : Projects P [] []
  | start {t : ℕ} {q : S.Req} {q' : S'.Req} {w : S.World} {w' : S'.World} {tr : Trace S}
      {tr' : Trace S'} (hq : P.request q = some q') (hrel : P.rel w w') (h : Projects P tr tr') :
      Projects P (⟨t, w, .start q⟩ :: tr) (⟨t, w', .start q'⟩ :: tr')
  | act {t : ℕ} {e : I.Event} {w : S.World} {w' : S'.World} {tr : Trace S} {tr' : Trace S'}
      (he : P.sees e = true) (hrel : P.rel w w') (h : Projects P tr tr') :
      Projects P (⟨t, w, .act e⟩ :: tr) (⟨t, w', .act e⟩ :: tr')
  | skip {x : Entry S} {tr : Trace S} {tr' : Trace S'}
      (hstart : ∀ q, x.item = .start q → P.request q = none)
      (hact : ∀ e, x.item = .act e → P.sees e = false) (h : Projects P tr tr') :
      Projects P (x :: tr) tr'

namespace Projects

variable {P : Projection S S'} {tr : Trace S} {tr' : Trace S'} {t : ℕ}

/-- A thread has done in the component what is seen of what it has done. -/
theorem own (h : Projects P tr tr') : own t tr' = (own t tr).filter P.sees := by
  induction h with
  | nil => rfl
  | start hq hrel _ ih => simpa using ih
  | @act t' e w w' tr tr' he hrel _ ih =>
      by_cases ht : t' = t
      · subst ht
        rw [own_act_self, own_act_self, List.filter_cons_of_pos he, ih]
      · rw [own_act_ne ht, own_act_ne ht, ih]
  | @skip x tr tr' hstart hact _ ih =>
      obtain ⟨t', w, item⟩ := x
      cases item with
      | start q => simpa using ih
      | done o => simpa using ih
      | act e =>
          by_cases ht : t' = t
          · subst ht
            have hunseen : ¬ P.sees e = true := by simp [hact e rfl]
            rw [own_act_self, List.filter_cons_of_neg hunseen, ih]
          · rw [own_act_ne ht, ih]

theorem fresh (h : Projects P tr tr') (hfresh : ∀ x ∈ tr, x.tid ≠ t) : ∀ x ∈ tr', x.tid ≠ t := by
  induction h with
  | nil => simp
  | start hq hrel _ ih =>
      simp only [List.mem_cons, forall_eq_or_imp] at hfresh ⊢
      exact ⟨hfresh.1, ih hfresh.2⟩
  | act he hrel _ ih =>
      simp only [List.mem_cons, forall_eq_or_imp] at hfresh ⊢
      exact ⟨hfresh.1, ih hfresh.2⟩
  | skip hstart hact _ ih => exact ih fun x hx => hfresh x (List.mem_cons_of_mem _ hx)

theorem started (h : Projects P tr tr') {q : S.Req} {q' : S'.Req} (hq : Started t q tr)
    (hrequest : P.request q = some q') : Started t q' tr' := by
  induction h with
  | nil =>
      obtain ⟨w, hw⟩ := hq
      simp at hw
  | @start t' q₀ q₀' w w' tr tr' hq₀ hrel _ ih =>
      obtain ⟨w₁, hw₁⟩ := hq
      obtain heq | hold := List.mem_cons.mp hw₁
      · cases heq
        obtain rfl := Option.some.inj (hq₀.symm.trans hrequest)
        exact ⟨w', List.mem_cons_self⟩
      · exact (ih ⟨w₁, hold⟩).mono (List.subset_cons_self _ _)
  | act he hrel _ ih =>
      obtain ⟨w₁, hw₁⟩ := hq
      exact (ih ⟨w₁, by simpa using hw₁⟩).mono (List.subset_cons_self _ _)
  | skip hstart hact _ ih =>
      obtain ⟨w₁, hw₁⟩ := hq
      obtain rfl | hold := List.mem_cons.mp hw₁
      · simp [hstart q rfl] at hrequest
      · exact ih ⟨w₁, hold⟩

/-- What is counted in the system is counted in the component, if it is seen there. -/
theorem countP_le (h : Projects P tr tr') {f : Entry S → Bool} {f' : Entry S' → Bool}
    (hseen : ∀ x, f x = true → ∃ e, x.item = .act e ∧ P.sees e = true)
    (hcounted : ∀ {t w w' e}, P.rel w w' → f ⟨t, w, .act e⟩ = true → f' ⟨t, w', .act e⟩ = true) :
    tr.countP f ≤ tr'.countP f' := by
  induction h with
  | nil => exact le_rfl
  | start hq hrel _ ih =>
      rw [List.countP_cons_of_neg fun hf => ?_]
      · exact ih.trans ((List.sublist_cons_self _ _).countP_le)
      · obtain ⟨e, heq, -⟩ := hseen _ hf
        simp at heq
  | @act t e w w' tr tr' he hrel _ ih =>
      rw [List.countP_cons, List.countP_cons]
      have hone : (if f ⟨t, w, .act e⟩ = true then 1 else 0) ≤
          if f' ⟨t, w', .act e⟩ = true then 1 else 0 := by
        split
        · rename_i hf
          rw [if_pos (hcounted hrel hf)]
        · exact Nat.zero_le _
      omega
  | @skip x tr tr' hstart hact _ ih =>
      rw [List.countP_cons_of_neg fun hf => ?_]
      · exact ih
      · obtain ⟨e, heq, he⟩ := hseen _ hf
        simp [hact e heq] at he

end Projects

/-- **A run of the system is one of the component.** -/
theorem Run.projects (P : Projection S S') {A : Trace S → Entry S → Prop}
    {A' : Trace S' → Entry S' → Prop} (hstart : ∀ tr' t q' w', A' tr' ⟨t, w', .start q'⟩)
    (hact : ∀ tr tr' t e w w', A tr ⟨t, w, .act e⟩ → P.sees e = true → A' tr' ⟨t, w', .act e⟩)
    {w : S.World} {tr : Trace S} (h : Run A w tr) :
    ∃ w' tr', Run A' w' tr' ∧ P.rel w w' ∧ Projects P tr tr' := by
  induction h with
  | init h =>
      obtain ⟨w', hw', hrel⟩ := P.init h
      exact ⟨w', [], .init hw', hrel, .nil⟩
  | env m _ h ih =>
      obtain ⟨w', tr', hrun', hrel, hproj⟩ := ih
      obtain ⟨m', w₁', henv, hrel'⟩ := P.env hrel h
      exact ⟨w₁', tr', .env m' hrun' henv, hrel', hproj⟩
  | @step w₁ tr x hrun hen hA ih =>
      obtain ⟨w', tr', hrun', hrel, hproj⟩ := ih
      cases hen with
      | @start t q w hfresh =>
          cases hrequest : P.request q with
          | none =>
              refine ⟨w', tr', hrun', hrel, .skip ?_ (by simp) hproj⟩
              rintro _ ⟨⟩
              exact hrequest
          | some q' =>
              have hnext : Enabled tr' (⟨t, w', .start q'⟩ : Entry S') w' :=
                .start (hproj.fresh hfresh)
              exact ⟨w', _, hrun'.step hnext (hstart _ _ _ _), hrel, .start hrequest hrel hproj⟩
      | @done t q w o hq hpath hopen =>
          exact ⟨w', tr', hrun', hrel, .skip (by simp) (by simp) hproj⟩
      | @act t q w w₁ c next r hq hpath hact' =>
          cases hseen : P.sees (I.event c r) with
          | false =>
              refine ⟨w', tr', hrun', P.skip r hrel hpath hseen hact', .skip (by simp) ?_ hproj⟩
              rintro _ ⟨⟩
              exact hseen
          | true =>
              obtain ⟨q', next', hrequest, hpath'⟩ := P.head r hpath hseen
              obtain ⟨w₁', hact₁, hrel₁⟩ := P.act hrel hseen hact'
              rw [← hproj.own] at hpath'
              have hnext : Enabled tr' (⟨t, w', .act (I.event c r)⟩ : Entry S') w₁' :=
                .act r (hproj.started hq hrequest) hpath' hact₁
              exact ⟨w₁', _, hrun'.step hnext (hact _ _ _ _ _ _ hA hseen), hrel₁,
                .act hseen hrel hproj⟩

end Concurrent
