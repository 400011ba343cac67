import ZeroTrustProxy.Concurrent.Outcome

/-!
Coming to the end without the others.

A system is responsive when every call can be replied to in every world, apart
from the calls to which there is no reply, and in the way that is asked for. The
threads of such a system do not wait for each other: from any point of a run, a
request that has been taken up can be run to its end by steps of its own thread
alone.
-/

namespace Concurrent

variable {I : Interface} {S : System I} {A : Trace S → Entry S → Prop}

/-- Every call to which there is a reply gets one, with an event of the kind `F`. -/
def Responsive (S : System I) (F : ℕ → I.Event → S.World → Prop) : Prop :=
  ∀ t c w, Nonempty (I.Resp c) →
    ∃ r w', S.act t (I.event c r) w = some w' ∧ F t (I.event c r) w

/-- A thread that has taken up a request has come to some point of its program. -/
theorem Run.path {w : S.World} {tr : Trace S} (h : Run A w tr) {t : ℕ} {q : S.Req}
    (hq : Started t q tr) : ∃ p, (S.program q).Path (own t tr) p := by
  induction h with
  | init h =>
      obtain ⟨_, hw⟩ := hq
      simp at hw
  | env _ _ _ ih => exact ih hq
  | @step w' tr x hrun hen _ ih =>
      cases hen with
      | @start t' q' w hfresh =>
          by_cases ht : t' = t
          · subst ht
            obtain ⟨w₀, hw₀⟩ := hq
            obtain heq | hold := List.mem_cons.mp hw₀
            · cases heq
              rw [own_start, own_eq_nil hfresh]
              exact ⟨_, .start⟩
            · exact (hfresh _ hold rfl).elim
          · obtain ⟨w₀, hw₀⟩ := hq
            exact ih ⟨w₀, by simpa [Ne.symm ht] using hw₀⟩
      | @act t' q' w w'' c next r hq' hpath hact =>
          have hold : Started t q tr := by
            obtain ⟨w₀, hw₀⟩ := hq
            exact ⟨w₀, by simpa using hw₀⟩
          by_cases ht : t' = t
          · subst ht
            obtain rfl := hrun.started_unique hold hq'
            rw [own_act_self]
            exact ⟨_, hpath.call r⟩
          · rw [own_act_ne ht]
            exact ih hold
      | done =>
          obtain ⟨w₀, hw₀⟩ := hq
          exact ih ⟨w₀, by simpa using hw₀⟩

/-- **A request of a responsive system can be run to its end by its own thread**:
it returns, or it raises, or it comes to a call to which there is no reply. -/
theorem Run.completes {F : ℕ → I.Event → S.World → Prop} (hS : Responsive S F) {t : ℕ} {q : S.Req} {p : Program I S.Err S.Out}
    {w : S.World} {tr : Trace S} (h : Reachable w tr) (hq : Started t q tr)
    (hpath : (S.program q).Path (own t tr) p) (hopen : ∀ o, ¬ Returned t o tr) :
    ∃ w' seg, Reachable w' (seg ++ tr) ∧
      (∀ y ∈ seg, y.tid = t ∧ ∀ e, y.item = .act e → F t e y.pre) ∧
      ((∃ o, Returned t o (seg ++ tr)) ∨
        (∃ e, (S.program q).Ends (own t (seg ++ tr)) (.error e)) ∨
        ∃ c, IsEmpty (I.Resp c) ∧ (S.program q).Calls (own t (seg ++ tr)) c) := by
  induction p generalizing w tr with
  | ret o =>
      have hdone : Enabled tr ⟨t, w, .done o⟩ w := .done hq hpath hopen
      exact ⟨w, [⟨t, w, .done o⟩], .step h hdone trivial, by simp,
        .inl ⟨o, w, List.mem_cons_self⟩⟩
  | throw e =>
      have hend : (Program.throw e : Program I S.Err S.Out).Ends [] (.error e) := ⟨rfl, rfl⟩
      exact ⟨w, [], h, by simp, .inr (.inl ⟨e, by simpa using hpath.ends hend⟩)⟩
  | call c next ih =>
      by_cases hreply : Nonempty (I.Resp c)
      · obtain ⟨r, w₁, hact, hkind⟩ := hS t c w hreply
        have hstep : Enabled tr ⟨t, w, .act (I.event c r)⟩ w₁ := .act r hq hpath hact
        have hpath' : (S.program q).Path (own t (⟨t, w, .act (I.event c r)⟩ :: tr)) (next r) := by
          rw [own_act_self]
          exact hpath.call r
        have hopen' : ∀ o, ¬ Returned t o (⟨t, w, .act (I.event c r)⟩ :: tr) := by
          rintro o ⟨w₀, hw₀⟩
          exact hopen o ⟨w₀, by simpa using hw₀⟩
        obtain ⟨w', seg, hrun, hown, hend⟩ := ih r (Run.step h hstep trivial)
          (hq.mono (List.subset_cons_self _ _)) hpath' hopen'
        refine ⟨w', seg ++ [⟨t, w, .act (I.event c r)⟩], by simpa using hrun, ?_, by simpa using hend⟩
        intro y hy
        obtain hy | hy := List.mem_append.mp hy
        · exact hown y hy
        · obtain rfl := List.mem_singleton.mp hy
          exact ⟨rfl, fun e heq => Item.act.inj heq ▸ hkind⟩
      · have hcall : (Program.call c next).Calls [] c := .inl ⟨rfl, rfl⟩
        exact ⟨w, [], h, by simp, .inr (.inr ⟨c, not_nonempty_iff.mp hreply,
          by simpa using hpath.calls hcall⟩)⟩

end Concurrent
