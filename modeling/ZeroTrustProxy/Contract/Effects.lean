import ZeroTrustProxy.Contract.Handlers

/-!
What one event does to the world.

`World.act` is opened once, in `act_cases`. The facts a proof about runs needs
follow from its cases: which part of the world an event leaves alone, what a
reply says about the world it came from, and, with the licence of the event,
what can happen to the key of a session.
-/

namespace ZeroTrustProxy

open Concurrent

variable {X : External} {srv : ProxyServer} {t : ℕ} {e : Event} {w w' : World}

/-! ### The events that change something -/

/-- The changes an event can make to Redis. A failed command that was executed
makes the same change as one that succeeds. -/
inductive RedisChanged (t : ℕ) : Event → World → World → Prop
  | setEx {w : World} {key : String} {value : RedisValue} {secs : ℕ} {r : Except Fault Unit}
      (accepted : World.expiryAccepted secs = true) :
      RedisChanged t (.redisSetEx key value secs r) w (w.setEx key value secs)
  | del {w : World} {key : String} {r : Except Fault Unit} :
      RedisChanged t (.redisDel key r) w (w.del key)
  | scan {w : World} {r : Except Fault (List String × ℕ)} (owed : List String) :
      RedisChanged t (.redisScan r) w (w.oweScan t owed)
  | scanNext {w : World} {left : ℕ} {r : Except Fault (List String)} (owed : List String) :
      RedisChanged t (.redisScanNext left r) w (w.oweScan t owed)
  | incr {w : World} {key : String} {r : Except Fault Int} (cell : Cell RedisValue) :
      RedisChanged t (.redisIncr key r) w { w with redis := w.redis.insert key cell }
  | expire {w : World} {key : String} {secs : Int} {r : Except Fault Unit}
      (cell : Cell RedisValue) :
      RedisChanged t (.redisExpire key secs r) w { w with redis := w.redis.insert key cell }
  | expireNow {w : World} {key : String} {secs : Int} {r : Except Fault Unit} :
      RedisChanged t (.redisExpire key secs r) w (w.del key)

/-- The changes an event can make. -/
inductive Changed (t : ℕ) : Event → World → World → Prop
  | redis {e : Event} {w w' : World} (changed : RedisChanged t e w w') : Changed t e w w'
  | upsert {w w' : World} {d : DeviceUpsert} {r : Except Fault Unit}
      (stored : w.upsertDevice d = some w') : Changed t (.upsertDevice d r) w w'
  | secret {w : World} {id : Uuid} {secret : String} {r : Except Fault Unit} :
      Changed t (.setUserMfaSecret id secret r) w (w.setUserMfaSecret id secret)
  | user {w : World} {username email passwordHash : String}
      {r : Except (Fault × UserRow) UserRow} {row : UserRow}
      (shape : row = ⟨row.id, username, email, passwordHash, false, none, true⟩)
      (fresh : ∀ u ∈ w.users, u.id ≠ row.id ∧ u.username ≠ row.username) :
      Changed t (.createUser username email passwordHash r) w
        { w with users := w.users ++ [row] }
  | audit {w : World} {row : AuditRow} {r : Except Fault Unit} :
      Changed t (.insertAuditLog row r) w { w with audit := w.audit ++ [row] }
  | drawn {w : World} {id : Uuid} (fresh : id ∉ w.drawn) :
      Changed t (.newUuid id) w { w with drawn := id :: w.drawn }
  | signed {w : World} {claims : Claims} {token : String}
      (fresh : w.tokens.lookup token = none) :
      Changed t (.jwtEncode claims (.ok token)) w
        { w with tokens := (token, claims) :: w.tokens }

/-- A change of Redis is a change of nothing else. -/
theorem RedisChanged.frame (h : RedisChanged t e w w') :
    w' = { w with redis := w'.redis, scans := w'.scans } := by
  cases h <;> rfl

namespace World

theorem accept_eq_some {b : Bool} {w₁ : World} : accept b w₁ = some w' ↔ b = true ∧ w₁ = w' := by
  cases b <;> simp [accept]

theorem answer_eq_some {α : Type} [DecidableEq α] {v : α} {r : Except Fault α}
    (h : w.answer v r = some w') : w' = w ∧ ∀ a, r = .ok a → a = v := by
  cases r with
  | error f => exact ⟨(Option.some.inj h).symm, by simp⟩
  | ok a =>
      obtain ⟨hv, rfl⟩ := accept_eq_some.mp h
      exact ⟨rfl, by rintro _ ⟨⟩; exact of_decide_eq_true hv⟩

theorem write_eq_some {w₁ : Option World} {r : Except Fault Unit} (h : w.write w₁ r = some w') :
    (w' = w ∧ ∃ f, r = .error f) ∨ w₁ = some w' := by
  cases r with
  | ok a => exact .inr h
  | error f =>
      simp only [write, Option.some.injEq] at h
      cases hf : f.executed with
      | false => exact .inl ⟨by simpa [hf] using h.symm, f, rfl⟩
      | true =>
          cases w₁ with
          | none => exact .inl ⟨by simpa [hf] using h.symm, f, rfl⟩
          | some w₂ => exact .inr (by simpa [hf] using h)

theorem createUser_eq_some {row : UserRow} (h : w.createUser row = some w') :
    (∀ u ∈ w.users, u.id ≠ row.id ∧ u.username ≠ row.username) ∧
      w' = { w with users := w.users ++ [row] } := by
  unfold createUser at h
  split at h
  · rename_i hok
    simp only [Bool.and_eq_true, List.all_eq_true, decide_eq_true_eq] at hok
    exact ⟨fun u hu => (hok.1.1.1.1 u hu).1, (Option.some.inj h).symm⟩
  · simp at h

theorem insertUser_changed {username email passwordHash : String} {row : UserRow}
    {r : Except (Fault × UserRow) UserRow}
    (h : w.insertUser username email passwordHash row = some w') :
    Changed t (.createUser username email passwordHash r) w w' := by
  unfold insertUser at h
  split at h
  · rename_i hshape
    obtain ⟨hfresh, rfl⟩ := createUser_eq_some h
    exact .user hshape hfresh
  · simp at h

theorem incr_changed {key : String} {n : Int} {r : Except Fault Int}
    (h : w.incr key = some (n, w')) : RedisChanged t (.redisIncr key r) w w' := by
  unfold incr at h
  split at h
  · obtain ⟨-, rfl⟩ := Prod.mk.inj (Option.some.inj h)
    exact .incr _
  · split at h
    · obtain ⟨-, rfl⟩ := Prod.mk.inj (Option.some.inj h)
      exact .incr _
    · simp at h
  · simp at h

theorem expire_changed {key : String} {secs : Int} {r : Except Fault Unit} :
    w.expire key secs = w ∨ RedisChanged t (.redisExpire key secs r) w (w.expire key secs) := by
  unfold expire
  split
  · exact .inl rfl
  · split
    · exact .inr (.expire _)
    · exact .inr .expireNow

theorem incr_reply {key : String} {n : Int}
    (h : World.act X t (.redisIncr key (.ok n)) w = some w') : w.incr key = some (n, w') := by
  obtain ⟨⟨m, w₁⟩, hincr, haccept⟩ := Option.bind_eq_some_iff.mp h
  obtain ⟨hn, rfl⟩ := accept_eq_some.mp haccept
  rw [hincr, of_decide_eq_true hn]

/-- A count has been made, also where its reply was lost, or nothing has. -/
theorem incr_cases {key : String} {r : Except Fault Int}
    (h : World.act X t (.redisIncr key r) w = some w') : w' = w ∨ ∃ n, w.incr key = some (n, w') := by
  cases r with
  | ok n => exact .inr ⟨n, incr_reply h⟩
  | error f =>
      have hlost : (if f.executed then ((w.incr key).map Prod.snd).getD w else w) = w' :=
        Option.some.inj h
      cases hf : f.executed with
      | false => exact .inl (by simpa [hf] using hlost.symm)
      | true =>
          cases hcount : w.incr key with
          | none => exact .inl (by simpa [hf, hcount] using hlost.symm)
          | some p =>
              obtain rfl : p.2 = w' := by simpa [hf, hcount] using hlost
              exact .inr ⟨p.1, rfl⟩

/-- Everything an event can do to the world. -/
theorem act_cases (h : World.act X t e w = some w') : w' = w ∨ Changed t e w w' := by
  cases e with
  | redisGet key r => exact .inl (answer_eq_some h).1
  | redisSetEx key value secs r =>
      rcases write_eq_some h with ⟨rfl, -⟩ | hset
      · exact .inl rfl
      · obtain ⟨haccepted, rfl⟩ : expiryAccepted secs = true ∧ w.setEx key value secs = w' := by
          simpa using hset
        exact .inr (.redis (.setEx haccepted))
  | redisDel key r =>
      rcases write_eq_some h with ⟨rfl, -⟩ | hdel
      · exact .inl rfl
      · obtain rfl := Option.some.inj hdel
        exact .inr (.redis .del)
  | redisScan r =>
      rcases r with f | ⟨keys, left⟩
      · exact .inl (Option.some.inj h).symm
      · obtain ⟨-, rfl⟩ := accept_eq_some.mp h
        exact .inr (.redis (.scan _))
  | redisScanNext left r =>
      rcases r with f | keys
      · exact .inl (Option.some.inj h).symm
      · obtain ⟨-, rfl⟩ := accept_eq_some.mp h
        exact .inr (.redis (.scanNext _))
  | redisIncr key r =>
      exact (incr_cases h).imp_right fun ⟨_, hcount⟩ => .redis (incr_changed hcount)
  | redisExpire key secs r =>
      rcases write_eq_some h with ⟨rfl, -⟩ | hexpire
      · exact .inl rfl
      · obtain rfl := Option.some.inj hexpire
        exact expire_changed.imp_right .redis
  | findUserByUsername username r =>
      rcases r with f | found
      · exact .inl (Option.some.inj h).symm
      · simp only [act] at h
        split at h
        · exact .inl (answer_eq_some h).1
        · simp at h
  | findUserById id r => exact .inl (answer_eq_some h).1
  | findDeviceByFingerprint userId hash r => exact .inl (answer_eq_some h).1
  | upsertDevice d r =>
      rcases write_eq_some h with ⟨rfl, -⟩ | hstored
      · exact .inl rfl
      · exact .inr (.upsert hstored)
  | setUserMfaSecret id secret r =>
      rcases write_eq_some h with ⟨rfl, -⟩ | hset
      · exact .inl rfl
      · obtain rfl := Option.some.inj hset
        exact .inr .secret
  | createUser username email passwordHash r =>
      rcases r with ⟨f, row⟩ | row
      · simp only [act, Option.some.injEq] at h
        cases hinsert : w.insertUser username email passwordHash row with
        | none => exact .inl (by simpa [hinsert] using h.symm)
        | some w₁ =>
            cases hf : f.executed with
            | false => exact .inl (by simpa [hf] using h.symm)
            | true =>
                obtain rfl : w₁ = w' := by simpa [hf, hinsert] using h
                exact .inr (insertUser_changed hinsert)
      · exact .inr (insertUser_changed h)
  | insertAuditLog row r =>
      rcases write_eq_some h with ⟨rfl, -⟩ | hrow
      · exact .inl rfl
      · obtain ⟨-, rfl⟩ : auditAccepted X w row = true ∧
            { w with audit := w.audit ++ [row] } = w' := by simpa using hrow
        exact .inr .audit
  | utcNow use now =>
      obtain ⟨-, rfl⟩ := accept_eq_some.mp h
      exact .inl rfl
  | newUuid id =>
      obtain ⟨hfresh, rfl⟩ := accept_eq_some.mp h
      exact .inr (.drawn (of_decide_eq_true hfresh))
  | generateSecret secret =>
      obtain ⟨-, rfl⟩ := accept_eq_some.mp h
      exact .inl rfl
  | hashPassword password r =>
      rcases r with f | hash
      · exact .inl (Option.some.inj h).symm
      · simp only [act] at h
        split at h
        · exact .inl (Option.some.inj h).symm
        · simp at h
  | totpCheck totp token r =>
      obtain ⟨-, rfl⟩ := accept_eq_some.mp h
      exact .inl rfl
  | jwtEncode claims r =>
      rcases r with f | token
      · simp [act] at h
      · obtain ⟨hfresh, rfl⟩ := accept_eq_some.mp h
        exact .inr (.signed (of_decide_eq_true hfresh))
  | jwtDecode token r =>
      simp only [act] at h
      split at h
      · exact .inl (accept_eq_some.mp h).2.symm
      · simp at h
      · exact .inl (accept_eq_some.mp h).2.symm
      · exact .inl (Option.some.inj h).symm
  | upstream request r => exact .inl (Option.some.inj h).symm
  | getSessionCall id => exact .inl (Option.some.inj h).symm
  | getSessionReturn id r => exact .inl (Option.some.inj h).symm

/-! ### What an event leaves alone -/

theorem upsertDevice_frame {d : DeviceUpsert} (h : w.upsertDevice d = some w') :
    w' = { w with devices := w'.devices } := by
  unfold upsertDevice at h
  split at h
  · split at h
    · rw [← Option.some.inj h]
    · split at h
      · rw [← Option.some.inj h]
      · simp at h
  · simp at h

theorem act_clock (h : World.act X t e w = some w') : w'.clock = w.clock := by
  rcases act_cases h with rfl | hc
  · rfl
  cases hc with
  | redis hr => rw [hr.frame]
  | upsert hstored => rw [upsertDevice_frame hstored]
  | _ => rfl

/-- The accounts change by enrolment and by registration only. -/
theorem act_users (h : World.act X t e w = some w') :
    w'.users = w.users ∨
      (∃ id secret r, e = .setUserMfaSecret id secret r ∧
        w'.users = (w.setUserMfaSecret id secret).users) ∨
      ∃ username email passwordHash r row, e = .createUser username email passwordHash r ∧
        row = ⟨row.id, username, email, passwordHash, false, none, true⟩ ∧
        (∀ u ∈ w.users, u.id ≠ row.id ∧ u.username ≠ row.username) ∧
        w'.users = w.users ++ [row] := by
  rcases act_cases h with rfl | hc
  · exact .inl rfl
  cases hc with
  | redis hr => exact .inl (by rw [hr.frame])
  | upsert hstored => exact .inl (by rw [upsertDevice_frame hstored])
  | user hshape hfresh => exact .inr (.inr ⟨_, _, _, _, _, rfl, hshape, hfresh, rfl⟩)
  | secret => exact .inr (.inl ⟨_, _, _, rfl, rfl⟩)
  | _ => exact .inl rfl

/-- Tokens come from signing, each once. -/
theorem act_tokens (h : World.act X t e w = some w') :
    w'.tokens = w.tokens ∨
      ∃ claims token, e = .jwtEncode claims (.ok token) ∧ w.tokens.lookup token = none ∧
        w'.tokens = (token, claims) :: w.tokens := by
  rcases act_cases h with rfl | hc
  · exact .inl rfl
  cases hc with
  | redis hr => exact .inl (by rw [hr.frame])
  | upsert hstored => exact .inl (by rw [upsertDevice_frame hstored])
  | signed hfresh => exact .inr ⟨_, _, rfl, hfresh, rfl⟩
  | _ => exact .inl rfl

/-- Identifiers are drawn once. -/
theorem act_drawn (h : World.act X t e w = some w') :
    w'.drawn = w.drawn ∨ ∃ id, e = .newUuid id ∧ id ∉ w.drawn ∧ w'.drawn = id :: w.drawn := by
  rcases act_cases h with rfl | hc
  · exact .inl rfl
  cases hc with
  | redis hr => exact .inl (by rw [hr.frame])
  | upsert hstored => exact .inl (by rw [upsertDevice_frame hstored])
  | drawn hfresh => exact .inr ⟨_, rfl, hfresh, rfl⟩
  | _ => exact .inl rfl

/-- Devices change by upserts only. -/
theorem act_devices (h : World.act X t e w = some w') :
    w'.devices = w.devices ∨ ∃ d r, e = .upsertDevice d r ∧ w.upsertDevice d = some w' := by
  rcases act_cases h with rfl | hc
  · exact .inl rfl
  cases hc with
  | redis hr => exact .inl (by rw [hr.frame])
  | upsert hstored => exact .inr ⟨_, _, rfl, hstored⟩
  | _ => exact .inl rfl

/-! ### What a reply says -/

theorem read_reply {key : String} {v : Option RedisValue}
    (h : World.act X t (.redisGet key (.ok v)) w = some w') : w' = w ∧ v = w.read key := by
  have hread : w.answer (w.read key) (.ok v) = some w' := h
  obtain ⟨hw, hv⟩ := answer_eq_some hread
  exact ⟨hw, hv v rfl⟩

theorem setEx_reply {key : String} {value : RedisValue} {secs : ℕ}
    (h : World.act X t (.redisSetEx key value secs (.ok ())) w = some w') :
    expiryAccepted secs = true ∧ w' = w.setEx key value secs := by
  have hset : w.write (if expiryAccepted secs then some (w.setEx key value secs) else none)
      (.ok ()) = some w' := h
  simp only [write, Option.ite_none_right_eq_some, Option.some.injEq] at hset
  exact ⟨hset.1, hset.2.symm⟩

theorem del_reply {key : String} (h : World.act X t (.redisDel key (.ok ())) w = some w') :
    w' = w.del key :=
  (Option.some.inj h).symm

/-- What is owed to a SCAN before a page is on the page or owed after it, and
nothing is owed after the last page. -/
theorem scanPage_eq_some {owed keys : List String} {last : Bool} {key : String}
    (h : w.scanPage t owed keys last = some w') (hkey : key ∈ owed) :
    key ∈ keys ∨ key ∈ w'.scans t ∧ last = false := by
  obtain ⟨hok, rfl⟩ := accept_eq_some.mp h
  by_cases hyielded : key ∈ keys
  · exact .inl hyielded
  · have hrest : key ∈ owed.filter fun key => !keys.contains key := by simp [hkey, hyielded]
    refine .inr ⟨by simpa [oweScan] using hrest, ?_⟩
    cases last with
    | false => rfl
    | true =>
        simp only [Bool.not_true, Bool.false_or, Bool.and_eq_true, List.isEmpty_iff] at hok
        rw [hok.2] at hrest
        exact (List.not_mem_nil hrest).elim

/-- A SCAN that is opened yields a session key or owes it. -/
theorem scan_reply {keys : List String} {left : ℕ} {key : String}
    (h : World.act X t (.redisScan (.ok (keys, left))) w = some w')
    (hkey : w.redis.lookup key ≠ none) (hsession : isSessionKey key = true) :
    key ∈ keys ∨ key ∈ w'.scans t ∧ left ≠ 0 := by
  have howed : key ∈ w.redis.keys.filter isSessionKey := by
    refine List.mem_filter.mpr ⟨?_, hsession⟩
    rw [← AList.mem_keys, ← AList.lookup_isSome]
    exact Option.isSome_iff_ne_none.mpr hkey
  rcases scanPage_eq_some h howed with hyielded | ⟨hrest, hlast⟩
  · exact .inl hyielded
  · exact .inr ⟨hrest, of_decide_eq_false hlast⟩

theorem scanNext_reply {keys : List String} {left : ℕ} {key : String}
    (h : World.act X t (.redisScanNext left (.ok keys)) w = some w') (hkey : key ∈ w.scans t) :
    key ∈ keys ∨ key ∈ w'.scans t ∧ left ≠ 1 := by
  rcases scanPage_eq_some h hkey with hyielded | ⟨hrest, hlast⟩
  · exact .inl hyielded
  · exact .inr ⟨hrest, of_decide_eq_false hlast⟩

/-- What is owed to a SCAN stays owed through the steps of other threads and
through steps of another kind, until the key is gone. -/
theorem act_scans {t' : ℕ} {key : String} (h : World.act X t' e w = some w')
    (hkey : key ∈ w.scans t) (hscan : ∀ r, e = .redisScan r → t' ≠ t)
    (hnext : ∀ n r, e = .redisScanNext n r → t' ≠ t) :
    w'.redis.lookup key = none ∨ key ∈ w'.scans t := by
  have hdel (key' : String) :
      (w.del key').redis.lookup key = none ∨ key ∈ (w.del key').scans t := by
    by_cases hsame : key = key'
    · subst hsame
      exact .inl (AList.lookup_erase _ _)
    · exact .inr (by simpa [del] using ⟨hkey, hsame⟩)
  have howe {owed : List String} (hne : t' ≠ t) : key ∈ (w.oweScan t' owed).scans t := by
    simpa [oweScan, Function.update_of_ne hne.symm] using hkey
  rcases act_cases h with rfl | hc
  · exact .inr hkey
  cases hc with
  | redis hr =>
      cases hr with
      | del => exact hdel _
      | expireNow => exact hdel _
      | scan owed => exact .inr (howe (hscan _ rfl))
      | scanNext owed => exact .inr (howe (hnext _ _ rfl))
      | _ => exact .inr hkey
  | upsert hstored => exact .inr (by rw [upsertDevice_frame hstored]; exact hkey)
  | _ => exact .inr hkey

/-- A counter that is counted up starts at one or holds one less. -/
theorem incr_eq_some {key : String} {n : Int}
    (h : w.incr key = some (n, w')) :
    (w.redis.lookup key = none ∧ n = 1 ∧
      w' = { w with redis := w.redis.insert key ⟨.int 1, none⟩ }) ∨
    ∃ d, w.redis.lookup key = some ⟨.int (n - 1), d⟩ ∧
      w' = { w with redis := w.redis.insert key ⟨.int n, d⟩ } := by
  unfold incr at h
  split at h
  · rename_i hnone
    obtain ⟨rfl, rfl⟩ := Prod.mk.inj (Option.some.inj h)
    exact .inl ⟨hnone, rfl, rfl⟩
  · rename_i m d hsome
    obtain ⟨-, h⟩ := Option.ite_none_right_eq_some.mp h
    obtain ⟨rfl, rfl⟩ := Prod.mk.inj (Option.some.inj h)
    exact .inr ⟨d, by rw [hsome, Int.add_sub_cancel], rfl⟩
  · simp at h

theorem read_insert {key key' : String} {cell : Cell RedisValue} :
    ({ w with redis := w.redis.insert key' cell } : World).read key =
      if key = key' then some cell.value else w.read key := by
  by_cases hkey : key = key'
  · subst hkey
    simp [read]
  · simp [read, hkey, AList.lookup_insert_ne hkey]

theorem read_del {key key' : String} {v : RedisValue} (h : (w.del key').read key = some v) :
    w.read key = some v := by
  by_cases hkey : key = key'
  · subst hkey
    simp [read, del] at h
  · simpa [read, del, AList.lookup_erase_ne hkey] using h

/-- A session record is there because it was before or has just been written:
counters and deadlines make none. -/
theorem session_act {key : String} {y : Session} (h : World.act X t e w = some w')
    (hread : w'.read key = some (.session y)) :
    w.read key = some (.session y) ∨ ∃ secs r, e = .redisSetEx key (.session y) secs r := by
  have hincr {key' : String} {n : Int} {w₁ : World} (hcount : w.incr key' = some (n, w₁))
      (hread₁ : w₁.read key = some (.session y)) : w.read key = some (.session y) := by
    obtain ⟨-, rfl, rfl⟩ | ⟨d, -, rfl⟩ := incr_eq_some hcount
    · rw [read_insert] at hread₁
      split at hread₁
      · simp at hread₁
      · exact hread₁
    · rw [read_insert] at hread₁
      split at hread₁
      · simp at hread₁
      · exact hread₁
  have hexpire {key' : String} {secs : Int}
      (hread₁ : (w.expire key' secs).read key = some (.session y)) :
      w.read key = some (.session y) := by
    unfold expire at hread₁
    split at hread₁
    · exact hread₁
    · rename_i cell hcell
      split at hread₁
      · rw [read_insert] at hread₁
        split at hread₁
        · rename_i hkey
          subst hkey
          rw [read, hcell]
          exact hread₁
        · exact hread₁
      · exact read_del hread₁
  obtain rfl | hc := act_cases h
  · exact .inl hread
  cases hc with
  | redis hr =>
      cases hr with
      | setEx accepted =>
          rw [setEx, read_insert] at hread
          split at hread
          · rename_i hkey
            obtain rfl := hkey
            obtain rfl := Option.some.inj hread
            exact .inr ⟨_, _, rfl⟩
          · exact .inl hread
      | del => exact .inl (read_del hread)
      | incr cell =>
          obtain hsame | ⟨n, hcount⟩ := incr_cases h
          · rw [hsame] at hread
            exact .inl hread
          · exact .inl (hincr hcount hread)
      | expire cell =>
          obtain ⟨hsame, -⟩ | hexpired := write_eq_some h
          · rw [hsame] at hread
            exact .inl hread
          · rw [← Option.some.inj hexpired] at hread
            exact .inl (hexpire hread)
      | expireNow => exact .inl (read_del hread)
      | scan owed => exact .inl hread
      | scanNext owed => exact .inl hread
  | upsert hstored =>
      rw [upsertDevice_frame hstored] at hread
      exact .inl hread
  | _ => exact .inl hread

theorem clock_reply {use : ClockUse} {now : Int}
    (h : World.act X t (.utcNow use now) w = some w') : w' = w ∧ now = w.clock := by
  obtain ⟨hnow, rfl⟩ := accept_eq_some.mp h
  exact ⟨rfl, of_decide_eq_true hnow⟩

theorem userById_reply {id : Uuid} {found : Option UserRow}
    (h : World.act X t (.findUserById id (.ok found)) w = some w') :
    w' = w ∧ found = w.userById id := by
  have hfound : w.answer (w.userById id) (.ok found) = some w' := h
  obtain ⟨hw, hv⟩ := answer_eq_some hfound
  exact ⟨hw, hv found rfl⟩

theorem userByUsername_reply {username : String} {found : Option UserRow}
    (h : World.act X t (.findUserByUsername username (.ok found)) w = some w') :
    w' = w ∧ found = w.userByUsername username := by
  simp only [act] at h
  split at h
  · obtain ⟨hw, hv⟩ := answer_eq_some h
    exact ⟨hw, hv found rfl⟩
  · simp at h

/-- A token that validates has been signed, with the claims it validates to. -/
theorem decode_reply {token : String} {claims : Claims}
    (h : World.act X t (.jwtDecode token (.ok claims)) w = some w') :
    w' = w ∧ w.tokens.lookup token = some claims ∧ claims.unexpired w.clock = true := by
  simp only [act] at h
  split at h
  · rename_i hlookup hr
    obtain ⟨hok, rfl⟩ := accept_eq_some.mp h
    simp only [Bool.and_eq_true, decide_eq_true_eq] at hok
    obtain rfl := Except.ok.inj hr
    exact ⟨rfl, by rw [hlookup, hok.1], by rw [hok.1]; exact hok.2⟩
  · simp at h
  · rename_i hr
    simp at hr
  · rename_i hr
    simp at hr

theorem uuid_reply {id : Uuid} (h : World.act X t (.newUuid id) w = some w') :
    id ∉ w.drawn ∧ w'.drawn = id :: w.drawn := by
  obtain ⟨hfresh, rfl⟩ := accept_eq_some.mp h
  exact ⟨of_decide_eq_true hfresh, rfl⟩

end World

/-! ### The key of a session -/

theorem sessionKey_inj {id id' : String} : sessionKey id = sessionKey id' ↔ id = id' := by
  simp [sessionKey, String.ext_iff]

theorem isSessionKey_sessionKey (id : String) : isSessionKey (sessionKey id) = true := by
  simp [isSessionKey, sessionKey]

theorem rateLimitKey_ne_sessionKey (bucket : String) (ip : IpAddr) (id : String) :
    rateLimitKey bucket ip ≠ sessionKey id := by
  simp [rateLimitKey, sessionKey, String.ext_iff]

/-- The reasons for deleting the key of a session. -/
theorem SessionDelete.cases_id {req : Request} {l : List Event} {id : String}
    (h : SessionDelete req l (sessionKey id)) :
    (∃ x now l', x.isExpired now = true ∧
        l = .utcNow .isExpired now :: .redisGet (sessionKey id) (.ok (some (.session x))) :: l') ∨
      (req.route = .logout ∧ ∃ claims, Bearer req l claims ∧ claims.sessionId = id) ∨
      (req.route = .logoutAll ∧ ∃ claims key x, Bearer req l claims ∧
        .redisGet key (.ok (some (.session x))) ∈ l ∧ x.userId = claims.sub ∧ x.id = id) := by
  generalize hkey : sessionKey id = key at h
  cases h with
  | expired now bearer expiry =>
      obtain rfl := sessionKey_inj.mp hkey
      exact .inl ⟨_, _, _, expiry, rfl⟩
  | logout route bearer =>
      exact .inr (.inl ⟨route, _, bearer, (sessionKey_inj.mp hkey).symm⟩)
  | logoutAll key route bearer read owner =>
      exact .inr (.inr ⟨route, _, key, _, bearer, read, owner, (sessionKey_inj.mp hkey).symm⟩)

/-- What can happen to the key of a session: nothing, a write of a record with
that id, or a deletion. -/
theorem sessionKey_step {req : Request} {h : List Event} (hL : Licence X srv req h e.command)
    (hact : World.act X t e w = some w') (id : String) :
    w'.redis.lookup (sessionKey id) = w.redis.lookup (sessionKey id) ∨
      (∃ x secs r, e = .redisSetEx (sessionKey id) (.session x) secs r ∧ x.id = id ∧
        SessionWrite X srv req h x secs ∧ World.expiryAccepted secs = true ∧
        w'.redis.lookup (sessionKey id) =
          some ⟨.session x, some (w.clock + Duration.seconds secs)⟩) ∨
      ∃ r, e = .redisDel (sessionKey id) r ∧ SessionDelete req h (sessionKey id) ∧
        w' = w.del (sessionKey id) := by
  have hother {key : String} (hne : key ≠ sessionKey id) (cell : Cell RedisValue) :
      (w.redis.insert key cell).lookup (sessionKey id) = w.redis.lookup (sessionKey id) :=
    AList.lookup_insert_ne hne.symm
  rcases World.act_cases hact with rfl | hc
  · exact .inl rfl
  cases hc with
  | redis hr =>
      cases hr with
      | @setEx _ key value secs r accepted =>
          obtain ⟨x, hkey, rfl, hwrite⟩ := hL
          by_cases hid : x.id = id
          · subst hid
            subst hkey
            refine .inr (.inl ⟨x, secs, r, rfl, rfl, hwrite, accepted, ?_⟩)
            exact AList.lookup_insert _
          · refine .inl (hother ?_ _)
            rw [hkey]
            exact fun heq => hid (sessionKey_inj.mp heq)
      | @del _ key r =>
          by_cases hkey : key = sessionKey id
          · subst hkey
            exact .inr (.inr ⟨r, rfl, hL, rfl⟩)
          · exact .inl (AList.lookup_erase_ne (Ne.symm hkey))
      | incr cell =>
          obtain ⟨bucket, rfl⟩ := hL
          exact .inl (hother (rateLimitKey_ne_sessionKey _ _ id) cell)
      | expire cell =>
          obtain ⟨bucket, rfl⟩ := hL
          exact .inl (hother (rateLimitKey_ne_sessionKey _ _ id) cell)
      | expireNow =>
          obtain ⟨bucket, rfl⟩ := hL
          exact .inl (AList.lookup_erase_ne (rateLimitKey_ne_sessionKey _ _ id).symm)
      | scan owed => exact .inl rfl
      | scanNext owed => exact .inl rfl
  | upsert hstored => exact .inl (by rw [World.upsertDevice_frame hstored])
  | _ => exact .inl rfl

end ZeroTrustProxy
