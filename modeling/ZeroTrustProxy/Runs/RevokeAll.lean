import ZeroTrustProxy.Concurrent.Sequential
import ZeroTrustProxy.Contract.Kinds
import ZeroTrustProxy.Runs.Scenario

/-!
A logout from everywhere.

`revoke_user_sessions` has three loops: the pages of a SCAN, a GET for every key
they yield, and a DEL for every session that was kept. A page or a GET that fails
is skipped without an error, so the success of the whole says that the sessions
which were read are gone, not that all of them are.
-/

namespace ZeroTrustProxy

open Concurrent Program Handler SessionManager

variable {X : External} {srv : ProxyServer} {h : List Event} {userId : String} {w w' : World}

/-! ### The loops -/

/-- One round of the loop of `get_user_sessions`: its events, and the session that
is kept. -/
inductive KeyRun (X : External) (userId key : String) : List Event → Option Session → Prop
  | failed {f : Fault} : KeyRun X userId key [.redisGet key (.error f)] none
  | missing : KeyRun X userId key [.redisGet key (.ok none)] none
  | unparsed {data : RedisValue} {e : String} (parse : data.parseSession X = .error e) :
      KeyRun X userId key [.redisGet key (.ok (some data))] none
  | foreign {s : Session} (other : s.userId ≠ userId) :
      KeyRun X userId key [.redisGet key (.ok (some (.session s)))] none
  | lapsed {s : Session} {now : Int} (owner : s.userId = userId) (expiry : s.isExpired now = true) :
      KeyRun X userId key
        [.utcNow .isExpired now, .redisGet key (.ok (some (.session s)))] none
  | kept {s : Session} {now : Int} (owner : s.userId = userId) (live : s.isExpired now = false) :
      KeyRun X userId key
        [.utcNow .isExpired now, .redisGet key (.ok (some (.session s)))] (some s)

theorem RedisValue.parseSession_ok {data : RedisValue} {s : Session}
    (hparse : data.parseSession X = .ok s) : data = .session s := by
  cases data with
  | session s' => rw [Except.ok.inj hparse]
  | int n => simp [parseSession] at hparse
  | other text => simp [parseSession] at hparse

theorem readUserSession_ends {key : String} {r : Except ProxyError (Option Session)}
    (hend : (readUserSession X userId key).Ends h r) :
    ∃ kept, r = .ok kept ∧ KeyRun X userId key h kept := by
  simp only [readUserSession, ends_call] at hend
  obtain ⟨x, h', rfl, hrest⟩ := hend
  cases x with
  | error f =>
      obtain ⟨rfl, rfl⟩ := ends_pure.mp hrest
      exact ⟨none, rfl, .failed⟩
  | ok data =>
      cases data with
      | none =>
          obtain ⟨rfl, rfl⟩ := ends_pure.mp hrest
          exact ⟨none, rfl, .missing⟩
      | some data =>
          cases hparse : data.parseSession X with
          | error e =>
              simp only [hparse] at hrest
              obtain ⟨rfl, rfl⟩ := ends_pure.mp hrest
              exact ⟨none, rfl, .unparsed hparse⟩
          | ok s =>
              obtain rfl := RedisValue.parseSession_ok hparse
              simp only [hparse] at hrest
              obtain ⟨howner, hnow⟩ | ⟨hother, hpure⟩ := ends_ite.mp hrest
              · simp only [utcNow, call_bind, ret_bind, ends_call, ends_pure] at hnow
                obtain ⟨now, _, rfl, rfl, rfl⟩ := hnow
                cases hover : s.isExpired now with
                | true => exact ⟨none, by simp, .lapsed howner hover⟩
                | false => exact ⟨some s, by simp, .kept howner hover⟩
              · obtain ⟨rfl, rfl⟩ := ends_pure.mp hpure
                exact ⟨none, rfl, .foreign hother⟩

/-- The loop of `get_user_sessions`, round after round. -/
inductive LoopRun (X : External) (userId : String) :
    List String → List Event → List Session → Prop
  | nil : LoopRun X userId [] [] []
  | cons {key : String} {keys : List String} {h h' : List Event} {kept : Option Session}
      {found : List Session} (one : KeyRun X userId key h kept)
      (rest : LoopRun X userId keys h' found) :
      LoopRun X userId (key :: keys) (h' ++ h) (kept.toList ++ found)

theorem readUserSessions_ends {keys : List String} {r : Except ProxyError (List Session)}
    (hend : (readUserSessions X userId keys).Ends h r) :
    ∃ found, r = .ok found ∧ LoopRun X userId keys h found := by
  induction keys generalizing h r with
  | nil =>
      obtain ⟨rfl, rfl⟩ := ends_pure.mp hend
      exact ⟨[], rfl, .nil⟩
  | cons key keys ih =>
      obtain ⟨kept, h₁, h₂, rfl, hone, hrest⟩ | ⟨e, -, hone⟩ := ends_bind.mp hend
      · obtain ⟨_, heq, hkey⟩ := readUserSession_ends hone
        obtain rfl := Except.ok.inj heq
        obtain ⟨found, h₃, h₄, rfl, hloop, hpure⟩ | ⟨e, -, hloop⟩ := ends_bind.mp hrest
        · obtain ⟨_, heq, hfound⟩ := ih hloop
          obtain rfl := Except.ok.inj heq
          obtain ⟨rfl, rfl⟩ := ends_pure.mp hpure
          exact ⟨_, rfl, .cons hkey hfound⟩
        · obtain ⟨_, heq, -⟩ := ih hloop
          simp at heq
      · obtain ⟨_, heq, -⟩ := readUserSession_ends hone
        simp at heq

/-- The event of a deletion that succeeds. -/
def deleted (s : Session) : Event := .redisDel (sessionKey s.id) (.ok ())

/-- The deletions stop at the first one that fails. -/
theorem deleteSessions_ends {found : List Session}
    (hend : (deleteSessions found).Ends h (.ok ())) : h = (found.map deleted).reverse := by
  induction found generalizing h with
  | nil => exact (ends_pure.mp hend).1
  | cons s found ih =>
      obtain ⟨_, h₁, h₂, rfl, hone, hrest⟩ | ⟨e, he, -⟩ := ends_bind.mp hend
      · simp only [deleteSession, redisDel, ends_call, ends_unwrap] at hone
        obtain ⟨x, _, rfl, rfl, hx⟩ := hone
        cases x with
        | error f => simp [Except.mapError] at hx
        | ok u =>
            rw [ih hrest, List.map_cons, List.reverse_cons]
            rfl
      · simp at he

/-- What `revoke_user_sessions` has done when it succeeds. -/
theorem revokeUserSessions_ends {n : ℕ} (hend : (revokeUserSessions X userId).Ends h (.ok n)) :
    ∃ keys scan reads found, h = (found.map deleted).reverse ++ (reads ++ scan) ∧
      scanSessionKeys.Ends scan (.ok keys) ∧ LoopRun X userId keys reads found := by
  obtain ⟨found, h₁, h₂, rfl, hget, hrest⟩ | ⟨e, he, -⟩ := ends_bind.mp hend
  · obtain ⟨keys, scan, reads, rfl, hscan, hreads⟩ | ⟨e, he, -⟩ := ends_bind.mp hget
    · obtain ⟨_, heq, hloop⟩ := readUserSessions_ends hreads
      obtain rfl := Except.ok.inj heq
      obtain ⟨_, h₃, h₄, rfl, hdelete, hpure⟩ | ⟨e, he, -⟩ := ends_bind.mp hrest
      · obtain ⟨rfl, -⟩ := ends_pure.mp hpure
        refine ⟨keys, scan, reads, found, ?_, hscan, hloop⟩
        rw [deleteSessions_ends hdelete, List.nil_append]
      · simp at he
    · simp at he
  · simp at he

/-! ### What has been read -/

/-- A record of the user has been read, and was unexpired when it was checked. -/
def ReadLive (userId : String) (h : List Event) (s : Session) : Prop :=
  s.userId = userId ∧ ∃ key now, s.isExpired now = false ∧
    [.utcNow .isExpired now, .redisGet key (.ok (some (.session s)))] <:+: h

theorem ReadLive.mono {h' : List Event} {s : Session} (hr : ReadLive userId h s) (hin : h <:+: h') :
    ReadLive userId h' s := by
  obtain ⟨howner, key, now, hlive, hpair⟩ := hr
  exact ⟨howner, key, now, hlive, hpair.trans hin⟩

/-- A round begins with its GET. -/
theorem KeyRun.first {key : String} {kept : Option Session} (hk : KeyRun X userId key h kept) :
    ∃ l r, h = l ++ [Event.redisGet key r] := by
  cases hk with
  | failed => exact ⟨[], _, rfl⟩
  | missing => exact ⟨[], _, rfl⟩
  | unparsed parse => exact ⟨[], _, rfl⟩
  | foreign other => exact ⟨[], _, rfl⟩
  | lapsed owner expiry => exact ⟨[_], _, rfl⟩
  | kept owner live => exact ⟨[_], _, rfl⟩

theorem KeyRun.kept_iff {key : String} {kept : Option Session} (hk : KeyRun X userId key h kept)
    {s : Session} : s ∈ kept.toList ↔ ReadLive userId h s := by
  cases hk with
  | failed => simp [ReadLive, List.infix_cons_iff]
  | missing => simp [ReadLive, List.infix_cons_iff]
  | unparsed parse => simp [ReadLive, List.infix_cons_iff]
  | foreign other => simp [ReadLive, List.infix_cons_iff]
  | lapsed owner expiry =>
      simp [ReadLive, List.infix_cons_iff]
      grind
  | kept owner live =>
      simp [ReadLive, List.infix_cons_iff]
      grind

theorem LoopRun.first {keys : List String} {found : List Session}
    (hl : LoopRun X userId keys h found) {use : ClockUse} {now : Int} :
    ¬ [.utcNow use now] <:+ h := by
  induction hl with
  | nil => simp
  | cons one rest ih =>
      obtain ⟨l, r, rfl⟩ := one.first
      rw [← List.append_assoc, List.singleton_suffix_append_singleton_iff]
      simp

/-- A check that follows its GET does so within one round. -/
theorem pair_infix_append {α : Type*} {a b : α} {l l' : List α} (hl : ¬ [a] <:+ l) :
    [a, b] <:+: l ++ l' ↔ [a, b] <:+: l ∨ [a, b] <:+: l' := by
  rw [List.infix_append_iff_ne_nil]
  constructor
  · rintro (hin | hin | ⟨l₁, l₂, hne₁, hne₂, heq, hsuf, -⟩)
    · exact .inl hin
    · exact .inr hin
    · cases l₁ with
      | nil => exact (hne₁ rfl).elim
      | cons c l₁ =>
          obtain ⟨rfl, hrest⟩ := List.cons.inj heq
          cases l₁ with
          | nil => exact (hl hsuf).elim
          | cons d l₁ =>
              obtain ⟨-, hnil⟩ := List.cons.inj hrest
              exact (hne₂ (List.append_eq_nil_iff.mp hnil.symm).2).elim
  · rintro (hin | hin)
    · exact .inl hin
    · exact .inr (.inl hin)

theorem LoopRun.readLive_append {keys : List String} {found : List Session} {h' : List Event}
    (hl : LoopRun X userId keys h found) {s : Session} :
    ReadLive userId (h ++ h') s ↔ ReadLive userId h s ∨ ReadLive userId h' s := by
  unfold ReadLive
  constructor
  · rintro ⟨howner, key, now, hlive, hin⟩
    obtain hin | hin := (pair_infix_append hl.first).mp hin
    · exact .inl ⟨howner, key, now, hlive, hin⟩
    · exact .inr ⟨howner, key, now, hlive, hin⟩
  · rintro (⟨howner, key, now, hlive, hin⟩ | ⟨howner, key, now, hlive, hin⟩)
    · exact ⟨howner, key, now, hlive, (pair_infix_append hl.first).mpr (.inl hin)⟩
    · exact ⟨howner, key, now, hlive, (pair_infix_append hl.first).mpr (.inr hin)⟩

/-- The loop has kept what it has read of the user. -/
theorem LoopRun.found_iff {keys : List String} {found : List Session}
    (hl : LoopRun X userId keys h found) {s : Session} : s ∈ found ↔ ReadLive userId h s := by
  induction hl with
  | nil => simp [ReadLive]
  | cons one rest ih => rw [List.mem_append, one.kept_iff, ih, rest.readLive_append, or_comm]

/-! ### What happens to the store -/

/-- The event neither writes nor deletes this key. -/
def Event.Spares (key : String) : Event → Prop
  | .redisSetEx key' _ _ _ | .redisDel key' _ | .redisIncr key' _ | .redisExpire key' _ _ =>
      key' ≠ key
  | _ => True

theorem Event.Spares.lookup {key : String} {e : Event} {t : ℕ} (hs : e.Spares key)
    (hact : World.act X t e w = some w') : w'.redis.lookup key = w.redis.lookup key := by
  obtain rfl | hc := World.act_cases hact
  · rfl
  cases hc with
  | redis hr =>
      cases hr with
      | setEx accepted => exact AList.lookup_insert_ne (Ne.symm hs)
      | del => exact AList.lookup_erase_ne (Ne.symm hs)
      | scan owed => rfl
      | scanNext owed => rfl
      | incr cell => exact AList.lookup_insert_ne (Ne.symm hs)
      | expire cell => exact AList.lookup_insert_ne (Ne.symm hs)
      | expireNow => exact AList.lookup_erase_ne (Ne.symm hs)
  | upsert hstored => rw [World.upsertDevice_frame hstored]
  | secret => rfl
  | user shape fresh => rfl
  | audit => rfl
  | drawn fresh => rfl
  | signed fresh => rfl

/-- The key holds this cell until its deadline has come. -/
def Ages (key : String) (c : Cell RedisValue) (w : World) : Prop :=
  w.redis.lookup key = if c.alive w.clock then some c else none

theorem Ages.advance {key : String} {c : Cell RedisValue} {m : Int} (ha : Ages key c w)
    (hle : w.clock ≤ m) : Ages key c (w.advance m) := by
  show (w.redis.advance m).lookup key = if c.alive m then some c else none
  rw [ExpiringStore.lookup_advance, ha]
  cases halive : c.alive m with
  | true => simp [Cell.alive_of_le halive hle, Option.filter, halive]
  | false => cases c.alive w.clock <;> simp [Option.filter, halive]

variable {t : ℕ} {key : String} {c : Cell RedisValue}

theorem last_only {e : Event} (hseq : Sequential ((proxySystem X srv).only t) w (e :: h) w') :
    ∃ w₁ w₂, Sequential ((proxySystem X srv).only t) w h w₁ ∧ World.act X t e w₁ = some w₂ ∧
      Sequential ((proxySystem X srv).only t) w₂ [] w' := by
  obtain ⟨_, w₁, w₂, hbefore, hact, hafter⟩ := hseq.last
  exact ⟨w₁, w₂, hbefore, hact, hafter⟩

/-- A key that every event spares ages. -/
theorem ages_sequential (hseq : Sequential ((proxySystem X srv).only t) w h w')
    (hspares : ∀ e ∈ h, e.Spares key) (ha : Ages key c w) : Ages key c w' := by
  refine hseq.invariant (Ages key c) ha ?_ ?_
  · intro m w₁ w₂ hm ha
    obtain ⟨hle, rfl⟩ : w₁.clock ≤ m ∧ w₁.advance m = w₂ := by simpa using hm
    exact ha.advance hle
  · intro _ e w₁ w₂ he hact ha
    unfold Ages
    rw [(hspares e he).lookup hact, World.act_clock hact]
    exact ha

/-- Nothing comes to be under a key that is spared or deleted. -/
theorem lookup_back (hseq : Sequential ((proxySystem X srv).only t) w h w')
    (hh : ∀ e ∈ h, e.Spares key ∨ ∃ r, e = .redisDel key r)
    (hc : w'.redis.lookup key = some c) : w.redis.lookup key = some c := by
  refine hseq.invariant (fun w₁ => ∀ c, w₁.redis.lookup key = some c → w.redis.lookup key = some c)
    (fun _ => id) ?_ ?_ c hc
  · intro m w₁ w₂ hm hback c hc
    obtain ⟨-, rfl⟩ : w₁.clock ≤ m ∧ w₁.advance m = w₂ := by simpa using hm
    exact hback c (ExpiringStore.lookup_advance_eq_some.mp hc).1
  · intro _ e w₁ w₂ he hact hback c hc
    obtain hspares | ⟨r, rfl⟩ := hh e he
    · exact hback c ((hspares.lookup hact).symm.trans hc)
    · obtain ⟨rfl, -⟩ | hdel := World.write_eq_some (r := r) hact
      · exact hback c hc
      · obtain rfl := Option.some.inj hdel
        have hnone : (w₁.del key).redis.lookup key = none := AList.lookup_erase _ _
        rw [hnone] at hc
        simp at hc

/-- What has gone stays away. -/
theorem gone_sequential (hseq : Sequential ((proxySystem X srv).only t) w h w')
    (hh : ∀ e ∈ h, e.Spares key ∨ ∃ r, e = .redisDel key r) (hnone : w.redis.lookup key = none) :
    w'.redis.lookup key = none := by
  by_contra hne
  obtain ⟨c, hc⟩ := Option.ne_none_iff_exists'.mp hne
  have hback := lookup_back hseq hh hc
  rw [hnone] at hback
  simp at hback

theorem LoopRun.spares {keys : List String} {found : List Session}
    (hl : LoopRun X userId keys h found) : ∀ e ∈ h, e.Spares key := by
  induction hl with
  | nil => simp
  | cons one rest ih =>
      intro e he
      obtain he | he := List.mem_append.mp he
      · exact ih e he
      · cases one <;> grind [Event.Spares]

/-- The event is a page of a SCAN. -/
def Event.Scans : Event → Prop
  | .redisScan _ | .redisScanNext _ _ => True
  | _ => False

theorem Event.Scans.spares {e : Event} (hs : e.Scans) : e.Spares key := by
  cases e with
  | redisScan r => trivial
  | redisScanNext left r => trivial
  | _ => exact hs.elim

theorem scanRest_scans {left : ℕ} {r : Except ProxyError (List String)}
    (hend : (scanRest left).Ends h r) : ∀ e ∈ h, e.Scans := by
  induction left generalizing h r with
  | zero =>
      obtain ⟨rfl, -⟩ := ends_pure.mp hend
      simp
  | succ left ih =>
      simp only [scanRest, ends_call] at hend
      obtain ⟨x, h', rfl, hrest⟩ := hend
      have hpage : ∀ e ∈ h', e.Scans := by
        cases x with
        | error f =>
            obtain ⟨rfl, -⟩ := ends_pure.mp hrest
            simp
        | ok keys =>
            obtain ⟨more, h₁, h₂, rfl, hmore, hpure⟩ | ⟨e, -, hmore⟩ := ends_bind.mp hrest
            · obtain ⟨rfl, -⟩ := ends_pure.mp hpure
              exact ih hmore
            · exact ih hmore
      intro e he
      obtain he | he := List.mem_append.mp he
      · exact hpage e he
      · obtain rfl := List.mem_singleton.mp he
        trivial

theorem scanSessionKeys_scans {r : Except ProxyError (List String)}
    (hend : scanSessionKeys.Ends h r) : ∀ e ∈ h, e.Scans := by
  have hfirst {h : List Event} {r : Except ProxyError (List String × ℕ)}
      (hend : redisScan.Ends h r) : ∀ e ∈ h, e.Scans := by
    simp only [redisScan, ends_call, ends_unwrap] at hend
    obtain ⟨x, _, rfl, rfl, -⟩ := hend
    intro e he
    obtain rfl := List.mem_singleton.mp he
    trivial
  obtain ⟨⟨keys, left⟩, h₁, h₂, rfl, hscan, hrest⟩ | ⟨e, -, hscan⟩ := ends_bind.mp hend
  · have hmore : ∀ e ∈ h₂, e.Scans := by
      obtain ⟨more, h₃, h₄, rfl, hmore, hpure⟩ | ⟨e, -, hmore⟩ := ends_bind.mp hrest
      · obtain ⟨rfl, -⟩ := ends_pure.mp hpure
        exact scanRest_scans hmore
      · exact scanRest_scans hmore
    intro e he
    obtain he | he := List.mem_append.mp he
    · exact hmore e he
    · exact hfirst hscan e he
  · exact hfirst hscan

theorem deleted_spares {s : Session} :
    (deleted s).Spares key ∨ ∃ r, deleted s = .redisDel key r := by
  by_cases hkey : sessionKey s.id = key
  · exact .inr ⟨.ok (), by rw [deleted, hkey]⟩
  · exact .inl hkey

/-- The deletions delete the keys of the sessions that were kept, and spare every
other key. -/
theorem deletions_store {found : List Session}
    (hseq : Sequential ((proxySystem X srv).only t) w (found.map deleted).reverse w')
    (ha : Ages key c w) :
    ((∃ s ∈ found, sessionKey s.id = key) → w'.redis.lookup key = none) ∧
      ((∀ s ∈ found, sessionKey s.id ≠ key) → Ages key c w') := by
  constructor
  · rintro ⟨s, hs, rfl⟩
    obtain ⟨later, earlier, hsplit⟩ :=
      List.append_of_mem (List.mem_reverse.mpr (List.mem_map_of_mem (f := deleted) hs))
    have hlater (e : Event) (he : e ∈ later) : e.Spares (sessionKey s.id) ∨
        ∃ r, e = .redisDel (sessionKey s.id) r := by
      have hin : e ∈ (found.map deleted).reverse := hsplit ▸ List.mem_append_left _ he
      obtain ⟨s', -, rfl⟩ := List.mem_map.mp (List.mem_reverse.mp hin)
      exact deleted_spares
    rw [hsplit] at hseq
    obtain ⟨w₁, hfirst, hsecond⟩ := Sequential.append_iff.mp hseq
    obtain ⟨w₂, w₃, -, hdel, hrest⟩ := last_only hfirst
    have hnone : w₃.redis.lookup (sessionKey s.id) = none := by
      rw [World.del_reply hdel]
      exact AList.lookup_erase _ _
    exact gone_sequential hsecond hlater (gone_sequential hrest (by simp) hnone)
  · intro hother
    refine ages_sequential hseq (fun e he => ?_) ha
    obtain ⟨s, hs, rfl⟩ := List.mem_map.mp (List.mem_reverse.mp he)
    exact hother s hs

/-- Neither the SCAN nor the deletions read a record. -/
theorem readLive_reads {keys : List String} {reads scan : List Event} {found found' : List Session}
    (hl : LoopRun X userId keys reads found) (hscan : ∀ e ∈ scan, e.Scans) {s : Session} :
    ReadLive userId ((found'.map deleted).reverse ++ (reads ++ scan)) s ↔
      ReadLive userId reads s := by
  have hdeletions {use : ClockUse} {now : Int} :
      .utcNow use now ∉ (found'.map deleted).reverse := by
    simp [deleted]
  have hpages {use : ClockUse} {now : Int} : .utcNow use now ∉ scan :=
    fun hmem => hscan _ hmem
  constructor
  · rintro ⟨howner, key, now, hlive, hin⟩
    obtain hin | hin := (pair_infix_append fun hsuf => hdeletions (hsuf.subset List.mem_cons_self)).mp hin
    · exact (hdeletions (hin.subset List.mem_cons_self)).elim
    · obtain hread | ⟨-, _, _, -, hin⟩ := hl.readLive_append.mp ⟨howner, key, now, hlive, hin⟩
      · exact hread
      · exact (hpages (hin.subset List.mem_cons_self)).elim
  · rintro ⟨howner, key, now, hlive, hin⟩
    exact ⟨howner, key, now, hlive,
      hin.trans ((List.prefix_append _ _).isInfix.trans (List.suffix_append _ _).isInfix)⟩

/-- **What a logout from everywhere does to a key.** It goes when a record with
its id has been read, and ages otherwise. -/
theorem revoked_store {n : ℕ} (hseq : Sequential ((proxySystem X srv).only t) w h w')
    (hend : (revokeUserSessions X userId).Ends h (.ok n)) (ha : Ages key c w) :
    ((∃ s, ReadLive userId h s ∧ sessionKey s.id = key) → w'.redis.lookup key = none) ∧
      ((∀ s, ReadLive userId h s → sessionKey s.id ≠ key) → Ages key c w') := by
  obtain ⟨keys, scan, reads, found, rfl, hscan, hloop⟩ := revokeUserSessions_ends hend
  have hfound (s : Session) :
      ReadLive userId ((found.map deleted).reverse ++ (reads ++ scan)) s ↔ s ∈ found := by
    rw [hloop.found_iff]
    exact readLive_reads hloop (scanSessionKeys_scans hscan)
  obtain ⟨w₁, hfirst, hdeletions⟩ := Sequential.append_iff.mp hseq
  have hages : Ages key c w₁ := by
    refine ages_sequential hfirst (fun e he => ?_) ha
    obtain he | he := List.mem_append.mp he
    · exact hloop.spares e he
    · exact (scanSessionKeys_scans hscan e he).spares
  obtain ⟨hgone, hkept⟩ := deletions_store hdeletions hages
  constructor
  · rintro ⟨s, hread, hkey⟩
    exact hgone ⟨s, (hfound s).mp hread, hkey⟩
  · exact fun hother => hkept fun s hs => hother s ((hfound s).mpr hs)

/-! ### Completeness -/

/-- The key holds a live session of the user. -/
structure LiveUnder (userId key : String) (s : Session) (w : World) : Prop where
  session : isSessionKey key = true
  stored : ∃ c, w.redis.lookup key = some c ∧ c.alive w.clock = true ∧ c.value = .session s
  owner : s.userId = userId
  live : s.isExpired w.clock = false

/-- From `w` to `w'` the live sessions of the user have gone, and no other key
has, unless its deadline has come. -/
structure RevokedOnly (userId : String) (w w' : World) : Prop where
  gone : ∀ key s, LiveUnder userId key s w → w'.redis.lookup key = none
  others : ∀ key c, w.redis.lookup key = some c → c.alive w'.clock = true →
    (∀ s, ¬ LiveUnder userId key s w) → w'.redis.lookup key = some c

/-- Every live session of the user whose deadline has not come by the end has been
read, and the records that have been read are under the keys of such sessions. -/
structure EachRead (userId : String) (h : List Event) (w w' : World) : Prop where
  read : ∀ key s, LiveUnder userId key s w → (w.advance w'.clock).redis.lookup key ≠ none →
    ∃ s', ReadLive userId h s' ∧ sessionKey s'.id = key
  own : ∀ s', ReadLive userId h s' →
    (w.advance w'.clock).redis.lookup (sessionKey s'.id) ≠ none →
    ∃ s, LiveUnder userId (sessionKey s'.id) s w

theorem clock_only (hseq : Sequential ((proxySystem X srv).only t) w h w') : w.clock ≤ w'.clock := by
  refine hseq.invariant (fun w₁ => w.clock ≤ w₁.clock) le_rfl ?_ ?_
  · intro m w₁ w₂ hm hle
    obtain ⟨hle', rfl⟩ : w₁.clock ≤ m ∧ w₁.advance m = w₂ := by simpa using hm
    exact hle.trans hle'
  · intro _ e w₁ w₂ _ hact hle
    have hclock : w₂.clock = w₁.clock := World.act_clock hact
    omega

theorem lookup_advance_ne_none {m : Int} :
    (w.advance m).redis.lookup key ≠ none ↔
      ∃ c, w.redis.lookup key = some c ∧ c.alive m = true := by
  rw [Option.ne_none_iff_exists']
  exact exists_congr fun c => ExpiringStore.lookup_advance_eq_some

theorem ages_start (hc : w.redis.lookup key = some c) (halive : c.alive w.clock = true) :
    Ages key c w := by
  rw [Ages, if_pos halive, hc]

/-- **When a logout from everywhere is complete.** When it succeeds, the live
sessions of the user have gone and nothing else has, exactly when each of them
has been read. -/
theorem revoke_complete {n : ℕ} (hseq : Sequential ((proxySystem X srv).only t) w h w')
    (hend : (revokeUserSessions X userId).Ends h (.ok n)) :
    RevokedOnly userId w w' ↔ EachRead userId h w w' := by
  have hle := clock_only hseq
  constructor
  · intro hrevoked
    constructor
    · intro key s hlive hthere
      obtain ⟨c, hc, halive⟩ := lookup_advance_ne_none.mp hthere
      by_contra hunread
      have hages := (revoked_store hseq hend (ages_start hc (Cell.alive_of_le halive hle))).2
        fun s' hread hkey => hunread ⟨s', hread, hkey⟩
      rw [Ages, hrevoked.gone key s hlive, if_pos halive] at hages
      simp at hages
    · intro s' hread hthere
      obtain ⟨c, hc, halive⟩ := lookup_advance_ne_none.mp hthere
      by_contra hnone
      have hkept := hrevoked.others _ c hc halive fun s hlive => hnone ⟨s, hlive⟩
      have hgone := (revoked_store hseq hend (ages_start hc (Cell.alive_of_le halive hle))).1
        ⟨s', hread, rfl⟩
      rw [hkept] at hgone
      simp at hgone
  · intro heach
    constructor
    · intro key s hlive
      obtain ⟨c, hc, halive, -⟩ := hlive.stored
      obtain ⟨hgone, hages⟩ := revoked_store hseq hend (ages_start hc halive)
      by_cases hread : ∃ s', ReadLive userId h s' ∧ sessionKey s'.id = key
      · exact hgone hread
      · have hkept := hages fun s' hr hkey => hread ⟨s', hr, hkey⟩
        have hover : ¬ c.alive w'.clock = true := fun halive' =>
          hread (heach.read key s hlive (lookup_advance_ne_none.mpr ⟨c, hc, halive'⟩))
        rw [hkept, if_neg hover]
    · intro key c hc halive hother
      obtain ⟨-, hages⟩ := revoked_store hseq hend (ages_start hc (Cell.alive_of_le halive hle))
      have hkept := hages fun s' hread hkey => by
        subst hkey
        obtain ⟨s, hlive⟩ := heach.own s' hread (lookup_advance_ne_none.mpr ⟨c, hc, halive⟩)
        exact hother s hlive
      rw [hkept, if_pos halive]

/-! ### Without failures -/

/-- Every session record is under its own key. -/
def Keyed (w : World) : Prop := ∀ key s, w.read key = some (.session s) → key = sessionKey s.id

theorem LoopRun.visits {keys : List String} {found : List Session}
    (hl : LoopRun X userId keys h found) (hkey : key ∈ keys) :
    ∃ h₁ kept, KeyRun X userId key h₁ kept ∧ h₁ <:+: h := by
  induction hl with
  | nil => simp at hkey
  | @cons key' keys h h' kept found one rest ih =>
      obtain rfl | hkey := List.mem_cons.mp hkey
      · exact ⟨h, kept, one, (List.suffix_append _ _).isInfix⟩
      · obtain ⟨h₁, kept₁, hone, hin⟩ := ih hkey
        exact ⟨h₁, kept₁, hone, hin.trans (List.prefix_append _ _).isInfix⟩

/-- The key is still to come on the pages of thread `t`, or has gone. -/
def Owed (t : ℕ) (key : String) (w : World) : Prop :=
  key ∈ w.scans t ∨ w.redis.lookup key = none

theorem Owed.advance {m : Int} (ho : Owed t key w) : Owed t key (w.advance m) := by
  by_cases hnone : (w.redis.advance m).lookup key = none
  · exact .inr hnone
  · obtain howed | hgone := ho
    · exact .inl (List.mem_filter.mpr ⟨howed, Option.isSome_iff_ne_none.mpr hnone⟩)
    · rw [ExpiringStore.lookup_advance, hgone] at hnone
      exact (hnone rfl).elim

theorem Owed.idle (hseq : Sequential ((proxySystem X srv).only t) w [] w') (ho : Owed t key w) :
    Owed t key w' := by
  refine hseq.invariant (Owed t key) ho ?_ (by simp)
  intro m w₁ w₂ hm ho
  obtain ⟨-, rfl⟩ : w₁.clock ≤ m ∧ w₁.advance m = w₂ := by simpa using hm
  exact ho.advance

/-- Pages that do not fail yield what is owed. -/
theorem scanRest_yields {left : ℕ} {keys : List String}
    (hseq : Sequential ((proxySystem X srv).only t) w h w') (hend : (scanRest left).Ends h (.ok keys))
    (hok : ∀ e ∈ h, e.failed = false) (ho : Owed t key w)
    (hlast : left = 0 → w.redis.lookup key = none) : key ∈ keys ∨ w'.redis.lookup key = none := by
  induction left generalizing w h keys with
  | zero =>
      obtain ⟨rfl, -⟩ := ends_pure.mp hend
      exact .inr (gone_sequential hseq (by simp) (hlast rfl))
  | succ left ih =>
      simp only [scanRest, ends_call] at hend
      obtain ⟨x, h', rfl, hrest⟩ := hend
      cases x with
      | error f =>
          have hfailed := hok (.redisScanNext (left + 1) (.error f)) (by simp [Cmd.event])
          simp [Event.failed] at hfailed
      | ok page =>
          obtain ⟨more, h₁, h₂, rfl, hmore, hpure⟩ | ⟨e, he, -⟩ := ends_bind.mp hrest
          · obtain ⟨rfl, heq⟩ := ends_pure.mp hpure
            obtain rfl := Except.ok.inj heq
            obtain ⟨w₁, hpage, hnext⟩ := Sequential.append_iff.mp hseq
            obtain ⟨w₂, w₃, hbefore, hreply, hafter⟩ := last_only hpage
            have hsame : w₃.redis.lookup key = w₂.redis.lookup key :=
              Event.Spares.lookup (e := .redisScanNext (left + 1) (.ok page)) trivial hreply
            have hnext' (ho₁ : Owed t key w₁) (hlast₁ : left = 0 → w₁.redis.lookup key = none) :
                key ∈ page ++ more ∨ w'.redis.lookup key = none := by
              have hok' : ∀ e ∈ ([] : List Event) ++ h₁, e.failed = false :=
                fun e he => hok e (List.mem_append_left _ he)
              exact (ih hnext hmore hok' ho₁ hlast₁).imp_left (List.mem_append_right _)
            obtain howed | hnone := ho.idle hbefore
            · obtain hyielded | ⟨howed', hleft⟩ := World.scanNext_reply hreply howed
              · exact .inl (List.mem_append_left _ hyielded)
              · exact hnext' (Owed.idle hafter (.inl howed')) fun hzero => (hleft (by omega)).elim
            · have hnone₁ := gone_sequential hafter (by simp) (hsame.trans hnone)
              exact hnext' (.inr hnone₁) fun _ => hnone₁
          · simp at he

/-- A SCAN that does not fail yields every session key that stays. -/
theorem scanSessionKeys_yields {keys : List String}
    (hseq : Sequential ((proxySystem X srv).only t) w h w')
    (hend : scanSessionKeys.Ends h (.ok keys)) (hok : ∀ e ∈ h, e.failed = false)
    (hsession : isSessionKey key = true) : key ∈ keys ∨ w'.redis.lookup key = none := by
  obtain ⟨⟨page, left⟩, h₁, h₂, rfl, hscan, hrest⟩ | ⟨e, he, -⟩ := ends_bind.mp hend
  · simp only [redisScan, ends_call, ends_unwrap] at hscan
    obtain ⟨x, _, rfl, rfl, hx⟩ := hscan
    cases x with
    | error f => simp [Except.mapError] at hx
    | ok p =>
        obtain rfl : (page, left) = p := Except.ok.inj hx
        obtain ⟨more, h₃, h₄, rfl, hmore, hpure⟩ | ⟨e, he, -⟩ := ends_bind.mp hrest
        · obtain ⟨rfl, heq⟩ := ends_pure.mp hpure
          obtain rfl := Except.ok.inj heq
          obtain ⟨w₁, hpage, hnext⟩ := Sequential.append_iff.mp hseq
          obtain ⟨w₂, w₃, hbefore, hreply, hafter⟩ := last_only hpage
          have hsame : w₃.redis.lookup key = w₂.redis.lookup key :=
            Event.Spares.lookup (e := .redisScan (.ok (page, left))) trivial hreply
          have hok' : ∀ e ∈ ([] : List Event) ++ h₃, e.failed = false :=
            fun e he => hok e (List.mem_append_left _ he)
          by_cases hnone : w₂.redis.lookup key = none
          · have hnone₁ := gone_sequential hafter (by simp) (hsame.trans hnone)
            exact (scanRest_yields hnext hmore hok' (.inr hnone₁) fun _ => hnone₁).imp_left
              (List.mem_append_right _)
          · obtain hyielded | ⟨howed, hleft⟩ := World.scan_reply hreply hnone hsession
            · exact .inl (List.mem_append_left _ hyielded)
            · exact (scanRest_yields hnext hmore hok' (Owed.idle hafter (.inl howed))
                fun hzero => (hleft hzero).elim).imp_left (List.mem_append_right _)
        · simp at he
  · simp at he

/-- Where a round of the loop stands in the whole call. -/
theorem revoke_events {n : ℕ} (hend : (revokeUserSessions X userId).Ends h (.ok n)) {e : Event}
    (he : e ∈ h) : e.Spares key ∨ ∃ r, e = .redisDel key r := by
  obtain ⟨keys, scan, reads, found, rfl, hscan, hloop⟩ := revokeUserSessions_ends hend
  obtain he | he := List.mem_append.mp he
  · obtain ⟨s, -, rfl⟩ := List.mem_map.mp (List.mem_reverse.mp he)
    exact deleted_spares
  · obtain he | he := List.mem_append.mp he
    · exact .inl (hloop.spares e he)
    · exact .inl (scanSessionKeys_scans hscan e he).spares

/-- A record that has been read was there at the start, and unexpired. -/
theorem ReadLive.stored {n : ℕ} {s : Session}
    (hseq : Sequential ((proxySystem X srv).only t) w h w')
    (hend : (revokeUserSessions X userId).Ends h (.ok n)) (hr : ReadLive userId h s) :
    (∃ key, w.read key = some (.session s)) ∧ s.isExpired w.clock = false := by
  obtain ⟨-, key, now, hlive, later, earlier, hsplit⟩ := hr
  have hh : h = (later ++ [Event.utcNow .isExpired now]) ++
      Event.redisGet key (.ok (some (.session s))) :: earlier := by rw [← hsplit]; simp
  obtain ⟨w₁, hfirst, hsecond⟩ := Sequential.append_iff.mp (hh ▸ hseq)
  obtain ⟨w₂, w₃, hbefore, hget, -⟩ := last_only hfirst
  obtain ⟨w₄, hcheck, -⟩ := Sequential.append_iff.mp hsecond
  obtain ⟨w₅, w₆, hidle, hclock, -⟩ := last_only hcheck
  obtain ⟨-, hstored⟩ := World.read_reply hget
  obtain ⟨-, rfl⟩ := World.clock_reply hclock
  constructor
  · obtain ⟨c, hc, hvalue⟩ := Option.map_eq_some_iff.mp hstored.symm
    have hstart := lookup_back hbefore
      (fun e he => revoke_events hend (hh ▸ List.mem_append_right _ (List.mem_cons_of_mem _ he))) hc
    exact ⟨key, by rw [World.read, hstart, Option.map_some, hvalue]⟩
  · have hle := (clock_only hfirst).trans (clock_only hidle)
    simp only [Session.isExpired, decide_eq_false_iff_not] at hlive ⊢
    omega

/-- Where records are under their own keys, only live sessions of the user are
deleted. -/
theorem Keyed.own {n : ℕ} {s : Session} (hkeyed : Keyed w)
    (hseq : Sequential ((proxySystem X srv).only t) w h w')
    (hend : (revokeUserSessions X userId).Ends h (.ok n)) (hr : ReadLive userId h s)
    (hthere : (w.advance w'.clock).redis.lookup (sessionKey s.id) ≠ none) :
    LiveUnder userId (sessionKey s.id) s w := by
  obtain ⟨⟨key, hstored⟩, hlive⟩ := hr.stored hseq hend
  obtain rfl := hkeyed key s hstored
  obtain ⟨c, hc, halive⟩ := lookup_advance_ne_none.mp hthere
  have hvalue : c.value = .session s := by
    rw [World.read, hc] at hstored
    exact Option.some.inj hstored
  exact ⟨isSessionKey_sessionKey _, ⟨c, hc, Cell.alive_of_le halive (clock_only hseq), hvalue⟩,
    hr.1, hlive⟩

/-- A live session whose key is visited without a failure is read. -/
theorem KeyRun.reads {kept : Option Session} {h₁ : List Event} {s : Session}
    (hk : KeyRun X userId key h₁ kept) (hin : h₁ <:+: h)
    (hseq : Sequential ((proxySystem X srv).only t) w h w') (hok : ∀ e ∈ h, e.failed = false)
    (hread : ∀ l₁ w₁, l₁ <:+ h → w₁.clock ≤ w'.clock →
      Sequential ((proxySystem X srv).only t) w l₁ w₁ → w₁.read key = some (.session s))
    (howner : s.userId = userId) (hlive : s.isExpired w'.clock = false) : ReadLive userId h s := by
  obtain ⟨l₂, l₁, rfl⟩ := hin
  -- what the GET of the round returns
  have hget {r : Option RedisValue} {l : List Event}
      (hh₁ : h₁ = l ++ [Event.redisGet key (.ok r)]) : r = some (.session s) := by
    subst hh₁
    have hsplit : l₂ ++ (l ++ [Event.redisGet key (.ok r)]) ++ l₁ =
        (l₂ ++ l) ++ Event.redisGet key (.ok r) :: l₁ := by simp
    obtain ⟨w₁, hfirst, hrest⟩ := Sequential.append_iff.mp (hsplit ▸ hseq)
    obtain ⟨w₂, w₃, hbefore, hact, hafter⟩ := last_only hfirst
    obtain ⟨rfl, hr⟩ := World.read_reply hact
    rw [hr]
    exact hread l₁ w₃ (List.suffix_append _ _) ((clock_only hafter).trans (clock_only hrest)) hbefore
  cases hk with
  | @failed f =>
      have hfailed := hok (.redisGet key (.error f)) (by simp)
      simp [Event.failed] at hfailed
  | missing => simpa using hget (l := []) rfl
  | @unparsed data e parse =>
      obtain rfl := Option.some.inj (hget (l := []) rfl)
      simp [RedisValue.parseSession] at parse
  | foreign other =>
      obtain rfl := RedisValue.session.inj (Option.some.inj (hget (l := []) rfl))
      exact (other howner).elim
  | @lapsed s' now owner expiry =>
      obtain rfl := RedisValue.session.inj (Option.some.inj (hget (l := [_]) rfl))
      exfalso
      have hsplit :
          l₂ ++ [Event.utcNow .isExpired now, .redisGet key (.ok (some (.session s')))] ++ l₁ =
            l₂ ++ Event.utcNow .isExpired now ::
              (.redisGet key (.ok (some (.session s'))) :: l₁) := by simp
      obtain ⟨w₁, hfirst, hrest⟩ := Sequential.append_iff.mp (hsplit ▸ hseq)
      obtain ⟨w₂, w₃, -, hact, hafter⟩ := last_only hfirst
      obtain ⟨rfl, rfl⟩ := World.clock_reply hact
      have hle := (clock_only hafter).trans (clock_only hrest)
      simp only [Session.isExpired, decide_eq_true_eq, decide_eq_false_iff_not] at expiry hlive
      omega
  | @kept s' now owner live =>
      obtain rfl := RedisValue.session.inj (Option.some.inj (hget (l := [_]) rfl))
      exact ⟨howner, key, now, live, l₂, l₁, rfl⟩

/-- **Without failures a logout from everywhere is complete**, of a store that has
the records under their own keys, unless a session expires meanwhile. -/
theorem eachRead_of_succeeds {n : ℕ} (hkeyed : Keyed w)
    (hseq : Sequential ((proxySystem X srv).only t) w h w')
    (hend : (revokeUserSessions X userId).Ends h (.ok n)) (hok : ∀ e ∈ h, e.failed = false)
    (hlive : ∀ key s, LiveUnder userId key s w → s.isExpired w'.clock = false) :
    EachRead userId h w w' := by
  constructor
  · intro key s hs hthere
    obtain ⟨c, hc, -, hvalue⟩ := hs.stored
    obtain ⟨c', hc', halive⟩ := lookup_advance_ne_none.mp hthere
    obtain rfl := Option.some.inj (hc.symm.trans hc')
    have hread : w.read key = some (.session s) := by rw [World.read, hc, Option.map_some, hvalue]
    obtain rfl := hkeyed key s hread
    refine ⟨s, ?_, rfl⟩
    obtain ⟨keys, scan, reads, found, rfl, hscan, hloop⟩ := revokeUserSessions_ends hend
    -- until the first deletion the record stays where it is
    have hstays {l : List Event} {w₁ : World} (hl : l <:+ reads ++ scan) (hle : w₁.clock ≤ w'.clock)
        (hfirst : Sequential ((proxySystem X srv).only t) w l w₁) :
        w₁.redis.lookup (sessionKey s.id) = some c := by
      have hages := ages_sequential hfirst (fun e he => ?_)
        (ages_start hc (Cell.alive_of_le halive (clock_only hseq)))
      · rw [hages, if_pos (Cell.alive_of_le halive hle)]
      · obtain he | he := List.mem_append.mp (hl.subset he)
        · exact hloop.spares e he
        · exact (scanSessionKeys_scans hscan e he).spares
    obtain ⟨w₁, hfirst, hdeletions⟩ := Sequential.append_iff.mp hseq
    obtain ⟨w₂, hpages, hreads⟩ := Sequential.append_iff.mp hfirst
    have hle₂ : w₂.clock ≤ w'.clock := (clock_only hreads).trans (clock_only hdeletions)
    have hyielded : sessionKey s.id ∈ keys := by
      refine (scanSessionKeys_yields hpages hscan
        (fun e he => hok e (List.mem_append_right _ (List.mem_append_right _ he)))
        (isSessionKey_sessionKey _)).resolve_right ?_
      rw [hstays (List.suffix_append _ _) hle₂ hpages]
      simp
    obtain ⟨h₁, kept, hone, hin⟩ := hloop.visits hyielded
    have hle₁ : w₁.clock ≤ w'.clock := clock_only hdeletions
    have hlive₁ : s.isExpired w₁.clock = false := by
      have hend := hlive _ s hs
      simp only [Session.isExpired, decide_eq_false_iff_not] at hend ⊢
      omega
    refine ReadLive.mono ?_ (List.suffix_append _ _).isInfix
    refine hone.reads (hin.trans (List.prefix_append _ _).isInfix) hfirst
      (fun e he => hok e (List.mem_append_right _ he)) (fun l w₃ hl hle hl₃ => ?_) hs.owner hlive₁
    rw [World.read, hstays hl (hle.trans hle₁) hl₃, Option.map_some, hvalue]
  · intro s hr hthere
    exact ⟨s, hkeyed.own hseq hend hr hthere⟩

/-! ### The request -/

/-- **A logout from everywhere that runs alone** and is answered with success. Its
call of `revoke_user_sessions` begins with records under their own keys, and ends
with the live sessions of the user gone exactly when each of them has been read. -/
theorem logoutAll_complete {A : ProxyTrace X srv → Entry (proxySystem X srv) → Prop}
    {seg tr : ProxyTrace X srv} {q : Request} {w₀ w₁ : World} {o : Response}
    (hrun : Run A w (seg ++ ⟨t, w₀, .start q⟩ :: tr)) (halone : ∀ y ∈ seg, y.tid = t)
    (hroute : q.route = .logoutAll) (hdone : ⟨t, w₁, .done o⟩ ∈ seg) (hok : o.status = 200) :
    ∃ claims h w₂, Bearer q (own t seg) claims ∧ h <+: own t seg ∧ Keyed w₂ ∧
      (RevokedOnly claims.sub w₂ w ↔ EachRead claims.sub h w₂ w) := by
  obtain ⟨w₂, hrun₂, hseq⟩ := hrun.sequential_only halone
  have hstart : Started t q (seg ++ (⟨t, w₀, .start q⟩ : Entry (proxySystem X srv)) :: tr) :=
    ⟨w₀, List.mem_append_right _ List.mem_cons_self⟩
  obtain ⟨r, hend, rfl⟩ := answered_own hrun hstart (List.mem_append_left _ hdone)
  obtain ⟨o, rfl⟩ := respond_ok hok
  have hfresh : own t ((⟨t, w₀, .start q⟩ : Entry (proxySystem X srv)) :: tr) = [] := by
    obtain ⟨-, -, w', hen⟩ := hrun.entry
    cases hen with
    | start hfresh => rw [own_start, own_eq_nil hfresh]
  rw [own_append, hfresh, List.append_nil, hroute] at hend
  obtain ⟨claims, bearer, rest, hown, hbearer, hrest⟩ | ⟨e, he, -⟩ := ends_bind.mp hend
  · obtain ⟨n, h₁, h₂, rfl, hrevoke, hpure⟩ | ⟨e, he, -⟩ := ends_bind.mp hrest
    · obtain ⟨rfl, -⟩ := ends_pure.mp hpure
      rw [hown] at hseq ⊢
      obtain ⟨w₃, hfirst, hsecond⟩ := Sequential.append_iff.mp hseq
      have hb := bearerClaims_ends hbearer
      refine ⟨claims, _, w₃, hb.bearer.mono (List.suffix_append _ _), List.prefix_append _ _, ?_,
        revoke_complete hsecond hrevoke⟩
      intro key s hread
      obtain ⟨c, hc, hvalue⟩ := Option.map_eq_some_iff.mp hread
      have hback := lookup_back hfirst (fun e he => .inl ?_) hc
      · exact session_keyed hrun₂ (by rw [World.read, hback, Option.map_some, hvalue])
      · cases hb with
        | valid header =>
            obtain rfl := List.mem_singleton.mp he
            trivial
    · simp at he
  · simp at he

/-! ### Particular calls -/

namespace Scenario

/-- A session of Alice, as her login would have made it. -/
def aliceSession : Session :=
  Session.build (Duration.seconds 59) (scriptUuid 2) alice.id.text "laptop" home.text userAgent 15

def aliceKey : String := sessionKey aliceSession.id

/-- A store that holds this session and nothing else. -/
def storing : World :=
  { world [alice] with
    redis := (∅ : ExpiringStore String RedisValue).insert aliceKey
      ⟨.session aliceSession, some (Duration.seconds 959)⟩ }

theorem storing_lookup : storing.redis.lookup aliceKey =
    some ⟨.session aliceSession, some (Duration.seconds 959)⟩ := AList.lookup_insert _

theorem storing_live : LiveUnder alice.id.text aliceKey aliceSession storing where
  session := isSessionKey_sessionKey _
  stored := ⟨_, storing_lookup, by decide, rfl⟩
  owner := rfl
  live := by decide

theorem storing_keyed : Keyed storing := by
  intro key s hread
  obtain ⟨c, hc, hvalue⟩ := Option.map_eq_some_iff.mp hread
  by_cases hkey : key = aliceKey
  · subst hkey
    obtain rfl := Option.some.inj (storing_lookup.symm.trans hc)
    obtain rfl := RedisValue.session.inj hvalue
    rfl
  · have hother : storing.redis.lookup key = none := AList.lookup_insert_ne hkey
    rw [hother] at hc
    simp at hc

/-- One page with the only key. -/
def onePage : Event := .redisScan (.ok ([aliceKey], 0))

theorem storing_scan : World.act external 0 onePage storing = some (storing.oweScan 0 []) := by
  have hkeys : storing.redis.keys.filter isSessionKey = [aliceKey] := by decide +kernel
  show storing.scanPage 0 (storing.redis.keys.filter isSessionKey) [aliceKey] _ = _
  rw [hkeys]
  simp [World.scanPage, World.accept, aliceKey, isSessionKey_sessionKey]

/-- The GET of the only key fails. The call succeeds with a count of zero, and the
session is still there. -/
theorem revoke_incomplete : ∃ (w w' : World) (h : List Event),
    Sequential ((proxySystem external server).only 0) w h w' ∧
      (revokeUserSessions external alice.id.text).Ends h (.ok 0) ∧
      ¬ RevokedOnly alice.id.text w w' := by
  refine ⟨storing, storing.oweScan 0 [],
    [.redisGet aliceKey (.error ⟨false, "connection reset"⟩), onePage], ?_, ?_, ?_⟩
  · exact .act 0 (.act 0 .start storing_scan) rfl
  · exact ⟨.ok ([aliceKey], 0), [_], rfl, .error ⟨false, "connection reset"⟩, [], rfl, rfl, rfl⟩
  · intro hrevoked
    have hgone := hrevoked.gone aliceKey aliceSession storing_live
    have hthere : (storing.oweScan 0 []).redis.lookup aliceKey = _ := storing_lookup
    rw [hthere] at hgone
    simp at hgone

/-- The same call without a failure. -/
theorem revoke_complete_run : ∃ (w' : World) (h : List Event),
    Sequential ((proxySystem external server).only 0) storing h w' ∧
      (revokeUserSessions external alice.id.text).Ends h (.ok 1) ∧
      RevokedOnly alice.id.text storing w' := by
  have hread : World.act external 0 (.redisGet aliceKey (.ok (some (.session aliceSession))))
      (storing.oweScan 0 []) = some (storing.oweScan 0 []) := by
    have hstored : (storing.oweScan 0 []).read aliceKey = some (.session aliceSession) :=
      congrArg (Option.map Cell.value) storing_lookup
    simp [World.act, World.answer, World.accept, hstored]
  have hseq : Sequential ((proxySystem external server).only 0) storing
      [.redisDel aliceKey (.ok ()), .utcNow .isExpired (Duration.seconds 59),
        .redisGet aliceKey (.ok (some (.session aliceSession))), onePage]
      ((storing.oweScan 0 []).del aliceKey) :=
    .act 0 (.act 0 (.act 0 (.act 0 .start storing_scan) hread) rfl) rfl
  have hend : (revokeUserSessions external alice.id.text).Ends
      [.redisDel aliceKey (.ok ()), .utcNow .isExpired (Duration.seconds 59),
        .redisGet aliceKey (.ok (some (.session aliceSession))), onePage] (.ok 1) :=
    ⟨.ok ([aliceKey], 0), [_, _, _], rfl, .ok (some (.session aliceSession)), [_, _], rfl,
      Duration.seconds 59, [_], rfl, .ok (), [], rfl, rfl, rfl⟩
  refine ⟨_, _, hseq, hend, (revoke_complete hseq hend).mpr ?_⟩
  refine eachRead_of_succeeds storing_keyed hseq hend (by simp [onePage, Event.failed]) ?_
  intro key s hlive
  exact hlive.live

end Scenario

end ZeroTrustProxy
