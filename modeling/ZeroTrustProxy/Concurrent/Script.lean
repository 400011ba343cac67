import Mathlib.Logic.Function.Basic
import ZeroTrustProxy.Concurrent.Run

/-!
Playing a schedule.

A run is a derivation; to exhibit a particular one it is enough to say who
moves when. `Play.run` plays such a script against a system whose replies are
computed, and what it ends in has been reached: `Play.run_sound`. The state of
a play holds the program every thread has come to, which a run leaves
implicit.
-/

namespace Concurrent

variable {I : Interface} {S : System I}

/-- The step is a start of a request that passes the test. -/
def Item.isStart (p : S.Req → Bool) : Item S → Bool
  | .start q => p q
  | _ => false

/-- The step is an event that passes the test. -/
def Item.isAct (p : I.Event → Bool) : Item S → Bool
  | .act e => p e
  | _ => false

/-- The step is a return that passes the test. -/
def Item.isDone (p : S.Out → Bool) : Item S → Bool
  | .done o => p o
  | _ => false

theorem Item.isStart_eq {p : S.Req → Bool} {item : Item S} (h : item.isStart p = true) :
    ∃ q, item = .start q ∧ p q = true := by
  cases item with
  | start q => exact ⟨q, rfl, h⟩
  | act e => simp [isStart] at h
  | done o => simp [isStart] at h

theorem Item.isDone_eq {p : S.Out → Bool} {item : Item S} (h : item.isDone p = true) :
    ∃ o, item = .done o ∧ p o = true := by
  cases item with
  | start q => simp [isDone] at h
  | act e => simp [isDone] at h
  | done o => exact ⟨o, rfl, h⟩

/-- One line of a script. The `mode` of a step selects among the replies that
the call could get. -/
inductive Move (S : System I) where
  | env (m : S.Env)
  | start (t : ℕ) (q : S.Req)
  | step (t : ℕ) (mode : ℕ)

/-- The state of a play: the world, the trace and the programs that threads
which have not returned have come to. -/
structure Play (S : System I) where
  world : S.World
  trace : Trace S
  threads : ℕ → Option (S.Req × Program I S.Err S.Out)

namespace Play

variable (reply : ℕ → ℕ → (c : I.Cmd) → S.World → Option (I.Resp c))
  (A : Trace S → Entry S → Prop) [∀ tr x, Decidable (A tr x)]

/-- Append a step and give thread `t` the program `next`. -/
def record (p : Play S) (x : Entry S) (w : S.World) (q : S.Req)
    (next : Option (Program I S.Err S.Out)) : Play S where
  world := w
  trace := x :: p.trace
  threads := Function.update p.threads x.tid (next.map (q, ·))

/-- Play one line, provided that it is a step of the system under `A`. -/
def move (p : Play S) : Move S → Option (Play S)
  | .env m => (S.env m p.world).map fun w => { p with world := w }
  | .start t q =>
      let x : Entry S := ⟨t, p.world, .start q⟩
      if (p.trace.all fun y => decide (y.tid ≠ t)) && decide (A p.trace x) then
        some (p.record x p.world q (some (S.program q)))
      else none
  | .step t mode =>
      match p.threads t with
      | some (q, .call c next) =>
          (reply mode t c p.world).bind fun r =>
            (S.act t (I.event c r) p.world).bind fun w =>
              let x : Entry S := ⟨t, p.world, .act (I.event c r)⟩
              if A p.trace x then some (p.record x w q (some (next r))) else none
      | some (q, .ret o) =>
          let x : Entry S := ⟨t, p.world, .done o⟩
          if A p.trace x then some (p.record x p.world q none) else none
      | _ => none

def run (p : Play S) : List (Move S) → Option (Play S)
  | [] => some p
  | m :: ms => (p.move reply A m).bind fun p' => p'.run ms

/-- What a play keeps: it has been reached, and its programs are those the
trace leads to. -/
structure Sound (p : Play S) : Prop where
  reached : Run A p.world p.trace
  threads : ∀ t q prog, p.threads t = some (q, prog) → Started t q p.trace ∧
    (S.program q).Path (own t p.trace) prog ∧ ∀ o, ¬ Returned t o p.trace

variable {reply A}

omit [∀ tr x, Decidable (A tr x)] in
/-- Recording a step of one thread does not disturb the others. -/
theorem Sound.record {p : Play S} (hp : p.Sound A) {x : Entry S} {w : S.World} {q : S.Req}
    {next : Option (Program I S.Err S.Out)} (hen : Enabled p.trace x w) (hA : A p.trace x)
    (hpre : x.pre = p.world)
    (hnext : ∀ prog, next = some prog → Started x.tid q (x :: p.trace) ∧
      (S.program q).Path (own x.tid (x :: p.trace)) prog ∧ ∀ o, ¬ Returned x.tid o (x :: p.trace)) :
    (p.record x w q next).Sound A := by
  refine ⟨.step (hpre ▸ hp.reached) hen hA, fun t q' prog hprog => ?_⟩
  by_cases ht : t = x.tid
  · subst ht
    obtain ⟨prog', hprog', heq⟩ : ∃ prog', next = some prog' ∧ (q, prog') = (q', prog) := by
      simpa [Play.record] using hprog
    obtain ⟨rfl, rfl⟩ := Prod.mk.inj heq
    exact hnext prog' hprog'
  · obtain ⟨hq, hpath, hopen⟩ := hp.threads t q' prog (by simpa [Play.record, ht] using hprog)
    have hown : own t (x :: p.trace) = own t p.trace := by
      obtain ⟨t', w', item⟩ := x
      cases item with
      | start q => rfl
      | done o => rfl
      | act e => exact own_act_ne (Ne.symm ht) w' e p.trace
    refine ⟨hq.mono (List.subset_cons_self _ _), ?_, fun o hret => ?_⟩
    · show (S.program q').Path (own t (x :: p.trace)) prog
      rw [hown]
      exact hpath
    · obtain ⟨w', hw'⟩ := hret
      rcases List.mem_cons.mp hw' with heq | hold
      · exact ht (by rw [← heq])
      · exact hopen o ⟨w', hold⟩

theorem Sound.move {p p' : Play S} (hp : p.Sound A) {m : Move S}
    (h : p.move reply A m = some p') : p'.Sound A := by
  cases m with
  | env m =>
      obtain ⟨w, hw, rfl⟩ := Option.map_eq_some_iff.mp h
      exact ⟨.env m hp.reached hw, hp.threads⟩
  | start t q =>
      simp only [Play.move, Bool.and_eq_true, List.all_eq_true, decide_eq_true_eq,
        Option.ite_none_right_eq_some, Option.some.injEq] at h
      obtain ⟨⟨hfresh, hA⟩, rfl⟩ := h
      refine hp.record (.start hfresh) hA rfl ?_
      rintro _ ⟨⟩
      have hnone : own t p.trace = [] := own_eq_nil hfresh
      refine ⟨⟨p.world, List.mem_cons_self⟩, ?_, fun o hret => ?_⟩
      · rw [own_start, hnone]
        exact .start
      · obtain ⟨w, hw⟩ := hret
        exact hfresh _ (by simpa using hw) rfl
  | step t mode =>
      simp only [Play.move] at h
      split at h
      · rename_i q c next hthread
        obtain ⟨hq, hpath, hopen⟩ := hp.threads t q _ hthread
        obtain ⟨r, -, h⟩ := Option.bind_eq_some_iff.mp h
        obtain ⟨w, hact, h⟩ := Option.bind_eq_some_iff.mp h
        obtain ⟨hA, h⟩ := Option.ite_none_right_eq_some.mp h
        obtain rfl := Option.some.inj h
        refine hp.record (.act r hq hpath hact) hA rfl ?_
        rintro _ ⟨⟩
        refine ⟨hq.mono (List.subset_cons_self _ _), ?_, fun o hret => ?_⟩
        · rw [own_act_self]
          exact hpath.call r
        · obtain ⟨w', hw'⟩ := hret
          exact hopen o ⟨w', by simpa using hw'⟩
      · rename_i q o hthread
        obtain ⟨hq, hpath, hopen⟩ := hp.threads t q _ hthread
        obtain ⟨hA, h⟩ := Option.ite_none_right_eq_some.mp h
        obtain rfl := Option.some.inj h
        exact hp.record (.done hq hpath hopen) hA rfl (by simp)
      · simp at h

theorem Sound.run {p p' : Play S} (hp : p.Sound A) {ms : List (Move S)}
    (h : p.run reply A ms = some p') : p'.Sound A := by
  induction ms generalizing p with
  | nil =>
      obtain rfl := Option.some.inj h
      exact hp
  | cons m ms ih =>
      obtain ⟨p₁, hmove, hrest⟩ := Option.bind_eq_some_iff.mp h
      exact ih (hp.move hmove) hrest

/-- A play only adds to its trace. -/
theorem move_suffix {p p' : Play S} {m : Move S} (h : p.move reply A m = some p') :
    p.trace <:+ p'.trace := by
  cases m with
  | env m =>
      obtain ⟨w, -, rfl⟩ := Option.map_eq_some_iff.mp h
      exact List.suffix_rfl
  | start t q =>
      obtain ⟨-, h⟩ := Option.ite_none_right_eq_some.mp h
      rw [← Option.some.inj h]
      exact List.suffix_cons _ _
  | step t mode =>
      simp only [Play.move] at h
      split at h
      · obtain ⟨r, -, h⟩ := Option.bind_eq_some_iff.mp h
        obtain ⟨w, -, h⟩ := Option.bind_eq_some_iff.mp h
        obtain ⟨-, h⟩ := Option.ite_none_right_eq_some.mp h
        rw [← Option.some.inj h]
        exact List.suffix_cons _ _
      · obtain ⟨-, h⟩ := Option.ite_none_right_eq_some.mp h
        rw [← Option.some.inj h]
        exact List.suffix_cons _ _
      · simp at h

theorem run_suffix {p p' : Play S} {ms : List (Move S)} (h : p.run reply A ms = some p') :
    p.trace <:+ p'.trace := by
  induction ms generalizing p with
  | nil =>
      obtain rfl := Option.some.inj h
      exact List.suffix_rfl
  | cons m ms ih =>
      obtain ⟨p₁, hmove, hrest⟩ := Option.bind_eq_some_iff.mp h
      exact (move_suffix hmove).trans (ih hrest)

/-- The play that starts in a world in which nothing has happened. -/
def start (w : S.World) : Play S := ⟨w, [], fun _ => none⟩

/-- **What a script ends in has been reached.** -/
theorem run_sound {w : S.World} (hinit : S.init w) {ms : List (Move S)} {p : Play S}
    (h : (start w).run reply A ms = some p) : p.Sound A :=
  Sound.run ⟨.init hinit, by simp [start]⟩ h

variable (reply A) in
/-- Play a script and check where it ends, and go on from there with another
one. The second check also sees what the second script has added. -/
def playsThen (w : S.World) (script : List (Move S)) (check : Play S → Bool)
    (script' : List (Move S)) (check' : Play S → Trace S → Bool) : Bool :=
  ((start w).run reply A script).any fun p =>
    check p && (p.run reply A script').any fun p' =>
      check' p' (p'.trace.take (p'.trace.length - p.trace.length))

theorem of_playsThen {w : S.World} {script script' : List (Move S)} {check : Play S → Bool}
    {check' : Play S → Trace S → Bool} (hinit : S.init w)
    (h : playsThen reply A w script check script' check' = true) :
    ∃ (p p' : Play S) (seg : Trace S), Run A p.world p.trace ∧ check p = true ∧
      p'.trace = seg ++ p.trace ∧ Run A p'.world p'.trace ∧ check' p' seg = true := by
  obtain ⟨p, hp, hboth⟩ := (Option.any_eq_true _ _).mp h
  obtain ⟨hcheck, hrest⟩ := Bool.and_eq_true_iff.mp hboth
  obtain ⟨p', hp', hcheck'⟩ := (Option.any_eq_true _ _).mp hrest
  obtain ⟨seg, hseg⟩ := run_suffix hp'
  have hsound := run_sound hinit hp
  refine ⟨p, p', seg, hsound.reached, hcheck, hseg.symm, (hsound.run hp').reached, ?_⟩
  have hnew : p'.trace.take (p'.trace.length - p.trace.length) = seg := by
    rw [← hseg, List.length_append, Nat.add_sub_cancel, List.take_left]
  exact hnew ▸ hcheck'

end Play

end Concurrent
