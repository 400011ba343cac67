import ZeroTrustProxy.Contract.RegisterExits
import ZeroTrustProxy.Runs.GuessBudget
import ZeroTrustProxy.Runs.Upstream

/-!
What the backend gets and what the client gets back.

A request that has been let through is sent to the backend once, as it came but for its
host, and the client gets the reply as the backend gave it. However many requests are
under way, the backend sees no more requests than clients have sent.
-/

namespace ZeroTrustProxy

open Concurrent Program Handler

variable {X : External} {srv : ProxyServer}
  {A : ProxyTrace X srv → Entry (proxySystem X srv) → Prop} {w : World} {tr : ProxyTrace X srv}
  {q : Request} {h : List Event} {t : ℕ} {r : UpstreamRequest}

/-- The event is a request to the backend. -/
def sent : Event → Bool
  | .upstream _ _ => true
  | _ => false

theorem sent_eq {e : Event} (he : sent e = true) : ∃ r x, e = .upstream r x := by
  cases e <;> simp [sent] at he
  exact ⟨_, _, rfl⟩

/-- What goes to the backend for a request. -/
structure Forwards (X : External) (srv : ProxyServer) (q : Request) (r : UpstreamRequest) :
    Prop where
  route : q.route = .proxied
  method : r.method = q.method
  uri : X.parseUri (trimEndSlashes srv.config.defaultBackend ++ q.uri.pathAndQuery.getD "/") =
    some r.uri
  headers : r.headers = q.headers.filter (·.1 ≠ "host")
  body : q.body = some r.body

/-- What the client gets for what the backend has replied. -/
def relay : Except String UpstreamResponse → Response
  | .ok resp => ⟨resp.status, .upstream resp.bytes⟩
  | .error _ => errorResponse .internalError

/-! ### One request -/

theorem forwardUpstream_first (hcalls : (forwardUpstream X srv q).Calls h (.upstream r)) :
    h = [] ∧ r.method = q.method ∧ r.headers = q.headers.filter (·.1 ≠ "host") ∧
      q.body = some r.body := by
  obtain ⟨body, hbody, hparse⟩ := calls_okOr_bind.mp hcalls
  obtain ⟨u, -, hsend⟩ := calls_okOr_bind.mp hparse
  simp only [call_bind, calls_call, Cmd.upstream.injEq] at hsend
  obtain ⟨rfl, rfl⟩ | ⟨x, h', -, hrest⟩ := hsend
  · exact ⟨rfl, rfl, rfl, hbody⟩
  · obtain ⟨_, -, hanswer⟩ := calls_mapErr_bind.mp hrest
    exact (calls_pure hanswer).elim

/-- Only a proxied request comes to the backend. -/
theorem handleRequest_forwards (hcalls : (handleRequest X srv q).Calls h (.upstream r)) :
    Forwards X srv q r := by
  have hhandler := handleRequest_calls hcalls
  cases hroute : q.route <;> rw [hroute] at hhandler
  case proxied =>
    obtain hgate | ⟨_, h₁, h₂, rfl, hgate, hforward⟩ := calls_bind.mp hhandler
    · exact absurd (authorize_confined.elim hgate) (by simp [Cmd.group])
    obtain ⟨rfl, hmethod, hheaders, hbody⟩ := forwardUpstream_first hforward
    exact ⟨hroute, hmethod, forwardUpstream_calls hforward, hheaders, hbody⟩
  case login => exact absurd (handleLogin_limited.confined.elim hhandler) (by simp [Cmd.group])
  case register =>
    exact absurd (handleRegister_limited.confined.elim hhandler) (by simp [Cmd.group])
  case mfaVerify =>
    exact absurd (handleMfaVerify_limited.confined.elim hhandler) (by simp [Cmd.group])
  case mfaEnroll => exact absurd (handleMfaEnroll_confined.elim hhandler) (by simp [Cmd.group])
  case logout => exact absurd (handleLogout_confined.elim hhandler) (by simp [Cmd.group])
  case logoutAll => exact absurd (handleLogoutAll_confined.elim hhandler) (by simp [Cmd.group])
  case health => exact (calls_pure hhandler).elim
  case metrics => exact (calls_pure hhandler).elim

/-- A request comes to the backend from `forward_upstream`, and from nowhere else. -/
theorem handleRoute_sends_once (route : Route) :
    (handleRoute X srv q route).Once fun (c : Cmd) => c.group = .upstream := by
  cases route with
  | proxied =>
      refine once_bind (authorize_confined.avoids (by decide)) fun _ => ?_
      refine once_bind (okOr_confined.avoids List.not_mem_nil) fun body => ?_
      refine once_bind (okOr_confined.avoids List.not_mem_nil) fun uri => ?_
      refine once_bind_left (once_call fun x => ?_) fun _ => uses_ret
      exact mapErr_confined.avoids List.not_mem_nil
  | health => exact uses_ret.once
  | metrics => exact uses_ret.once
  | login => exact (handleLogin_limited.confined.avoids (by decide)).once
  | register => exact (handleRegister_limited.confined.avoids (by decide)).once
  | mfaVerify => exact (handleMfaVerify_limited.confined.avoids (by decide)).once
  | mfaEnroll => exact (handleMfaEnroll_confined.avoids (by decide)).once
  | logout => exact (handleLogout_confined.avoids (by decide)).once
  | logoutAll => exact (handleLogoutAll_confined.avoids (by decide)).once

/-- Every way in which forwarding ends. -/
theorem forwardUpstream_ends {o : Except ProxyError Response}
    (hend : (forwardUpstream X srv q).Ends h o) :
    (h = [] ∧ o = .error .internalError) ∨ ∃ r x, h = [.upstream r x] ∧ respond o = relay x := by
  simp only [forwardUpstream, call_bind, ends_okOr_bind, ends_mapErr_bind, ends_call,
    ends_pure] at hend
  obtain ⟨body, -, ⟨uri, -, x, h', rfl, hlast⟩ | ⟨-, rfl, rfl⟩⟩ | ⟨-, rfl, rfl⟩ := hend
  · obtain ⟨resp, rfl, rfl, rfl⟩ | ⟨e, rfl, rfl, rfl⟩ := hlast
    · exact .inr ⟨_, .ok resp, rfl, rfl⟩
    · exact .inr ⟨_, .error e, rfl, rfl⟩
  · exact .inl ⟨rfl, rfl⟩
  · exact .inl ⟨rfl, rfl⟩

theorem last_answers {α : Type} {p : Handler α} {f : α → Handler Response} {o : Response}
    (hend : (p >>= f).Ends h (.ok o)) : ∃ a l, (f a).Ends l (.ok o) := by
  obtain ⟨a, -, l, -, -, hlast⟩ | ⟨e, heq, -⟩ := ends_bind.mp hend
  · exact ⟨a, l, hlast⟩
  · simp at heq

theorem pure_answers {o o' : Response} (hend : (pure o' : Handler Response).Ends h (.ok o)) :
    o = o' := Except.ok.inj (ends_pure.mp hend).2

/-- The answers that are the proxy's own are not relayed. -/
theorem own_body {o : Response} (hend : (handleRoute X srv q q.route).Ends h (.ok o))
    (hroute : q.route ≠ .proxied) (bytes : String) : o.body ≠ .upstream bytes := by
  intro hbody
  cases hq : q.route <;> rw [hq] at hend
  case proxied => exact hroute hq
  case health =>
    obtain rfl := pure_answers hend
    simp at hbody
  case metrics =>
    obtain rfl := pure_answers hend
    simp at hbody
  case login =>
    obtain ⟨user, mfa, token, rfl⟩ := (handleLogin_ends hend).answer
    simp [loginAnswer] at hbody
  case register =>
    cases handleRegister_ends hend with
    | created rated parsed password => simp [registerAnswer] at hbody
  case mfaEnroll =>
    have hrun := handleMfaEnroll_ends hend
    generalize hr : (Except.ok o : Except ProxyError Response) = r at hrun
    cases hrun with
    | written secret x bearer subject =>
        cases x with
        | ok u =>
            obtain rfl := Except.ok.inj hr
            simp [enrollAnswer] at hbody
        | error f => simp [Except.map, Except.mapError] at hr
    | _ => simp at hr
  case mfaVerify =>
    cases handleMfaVerify_ends hend with
    | decided rated bearer parsed subject stored decision =>
        generalize hr : (Except.ok o : Except ProxyError Response) = r at decision
        cases decision with
        | @upgraded check body update session r' checked fetched written =>
            cases r' with
            | ok u =>
                obtain rfl := Except.ok.inj hr
                simp [verifyAnswer] at hbody
            | error e => simp [Except.map] at hr
        | _ => simp at hr
  case logout =>
    obtain ⟨claims, _, hdelete⟩ := last_answers hend
    obtain ⟨_, _, hanswer⟩ := last_answers hdelete
    obtain rfl := pure_answers hanswer
    simp at hbody
  case logoutAll =>
    obtain ⟨claims, _, hrevoke⟩ := last_answers hend
    obtain ⟨revoked, _, hanswer⟩ := last_answers hrevoke
    obtain rfl := pure_answers hanswer
    simp at hbody

/-- A proxied request is answered with what the backend has replied. -/
theorem proxied_relays {o : Except ProxyError Response}
    (hend : (handleRoute X srv q .proxied).Ends h o) :
    (∀ r x, .upstream r x ∈ h → respond o = relay x) ∧
      ∀ bytes, (respond o).body = .upstream bytes → ∃ r resp, .upstream r (.ok resp) ∈ h := by
  have hquiet {h₁ : List Event} {o₁ : Except ProxyError Unit}
      (hgate : (authorize X srv q).Ends h₁ o₁) (r : UpstreamRequest)
      (x : Except String UpstreamResponse) : .upstream r x ∉ h₁ := by
    intro hmem
    have hgroup : (Event.upstream r x).command.group ∈ [CmdGroup.session, .audit, .ambient] :=
      authorize_confined.ends hgate _ hmem
    simp [Event.command, Cmd.group] at hgroup
  obtain ⟨_, h₁, h₂, rfl, hgate, hforward⟩ | ⟨e, rfl, hgate⟩ := ends_bind.mp hend
  swap
  · exact ⟨fun r x hmem => (hquiet hgate r x hmem).elim, fun bytes hbody => by
      simp [respond, errorResponse] at hbody⟩
  obtain ⟨rfl, rfl⟩ | ⟨r, x, rfl, hrelay⟩ := forwardUpstream_ends hforward
  · exact ⟨fun r x hmem => (hquiet hgate r x hmem).elim, fun bytes hbody => by
      simp [respond, errorResponse] at hbody⟩
  refine ⟨fun r' x' hmem => ?_, fun bytes hbody => ?_⟩
  · obtain hlast | hmem := List.mem_append.mp hmem
    · obtain ⟨rfl, rfl⟩ := Event.upstream.inj (List.mem_singleton.mp hlast)
      exact hrelay
    · exact (hquiet hgate r' x' hmem).elim
  · cases x with
    | ok resp => exact ⟨r, resp, by simp⟩
    | error e =>
        rw [hrelay] at hbody
        simp [relay, errorResponse] at hbody

/-! ### Runs -/

theorem sent_group {e : Event} (he : sent e = true) : e.command.group = .upstream := by
  obtain ⟨r, x, rfl⟩ := sent_eq he
  rfl

theorem upstream_of_group {c : Cmd} (hc : c.group = .upstream) : ∃ r, c = .upstream r := by
  cases c with
  | upstream r => exact ⟨r, rfl⟩
  | utcNow use => cases use <;> simp [Cmd.group] at hc
  | _ => simp [Cmd.group] at hc

theorem program_sends_once (q : Request) :
    ((proxySystem X srv).program q).Once fun (c : Cmd) => c.group = .upstream :=
  handleRequest_once (handleRoute_sends_once q.route)

/-- A proxied request has arrived. -/
def proxiedArrival (y : Entry (proxySystem X srv)) : Bool :=
  y.item.isStart fun (q : Request) => decide (q.route = .proxied)

/-- The backend gets no more requests than there are proxied ones. -/
theorem sent_le_arrivals (hrun : Run A w tr) :
    tr.countP (fun y => y.item.isEvent sent) ≤ tr.countP proxiedArrival := by
  refine hrun.countP_le program_sends_once (fun e => sent_group) fun q h c hcalls hc => ?_
  obtain ⟨r, rfl⟩ := upstream_of_group hc
  exact decide_eq_true (handleRequest_forwards hcalls).route

/-- **The proxy relays.** The backend gets no more requests than there are proxied ones,
each of them at most once and with the method, the headers but for the host and the body it
came with; a client whose request has been sent gets the reply of the backend as it is, or
an internal error when there is none, and gets nothing else as from the backend. -/
theorem relayed_once (hrun : Run A w tr) :
    tr.countP (fun y => y.item.isEvent sent) ≤ tr.countP proxiedArrival ∧
      ∀ (t : ℕ) (q : Request), Started t q tr → (own t tr).countP sent ≤ 1 ∧
        (∀ r x, .upstream r x ∈ own t tr →
          Forwards X srv q r ∧ ∀ o : Response, Returned t o tr → o = relay x) ∧
        ∀ (o : Response) bytes, Returned t o tr → o.body = .upstream bytes →
          ∃ r resp, .upstream r (.ok resp) ∈ own t tr ∧ o = relay (.ok resp) := by
  refine ⟨sent_le_arrivals hrun, fun t q hq =>
    ⟨hrun.own_once program_sends_once (fun e => sent_group) t, fun r x hsent => ?_, ?_⟩⟩
  · obtain ⟨l, hl⟩ := suffix_of_mem hsent
    obtain ⟨post, pre, w₂, _, q', rfl, -, -, hq', hcalls, -⟩ :=
      hrun.licensed (calls_contract (proxySystem X srv)) hl
    have hlater := hq'.mono ((List.suffix_cons ⟨t, w₂, .act (.upstream r x)⟩ pre).trans
      (List.suffix_append post _)).subset
    obtain rfl := hrun.started_unique hq hlater
    have hforwards := handleRequest_forwards hcalls
    refine ⟨hforwards, ?_⟩
    rintro o ⟨w₁, hdone⟩
    obtain ⟨r', hend, rfl⟩ := answered_own hrun hq hdone
    rw [hforwards.route] at hend
    exact (proxied_relays hend).1 r x hsent
  · rintro o bytes ⟨w₁, hdone⟩ hbody
    obtain ⟨r', hend, rfl⟩ := answered_own hrun hq hdone
    by_cases hroute : q.route = .proxied
    · rw [hroute] at hend
      obtain ⟨hanswer, hreply⟩ := proxied_relays hend
      obtain ⟨r, resp, hsent⟩ := hreply bytes hbody
      exact ⟨r, resp, hsent, hanswer r _ hsent⟩
    · cases r' with
      | ok o => exact (own_body hend hroute bytes hbody).elim
      | error e => simp [respond, errorResponse] at hbody

namespace Scenario

/-- Alice logs in and asks for some data. -/
theorem relayed_once_run : ∃ (w : World) (tr : ProxyTrace external server) (o : Response),
    Reachable w tr ∧ Returned 1 o tr ∧ tr.countP proxiedArrival = 1 ∧
      tr.countP (fun y => y.item.isEvent sent) ≤ 1 ∧
      ∃ r x, .upstream r x ∈ own 1 tr ∧ o = relay x := by
  have hplay : plays (fun _ _ => True) [alice]
      (.start 0 (login aliceLogin) :: steps 0 24 ++
        .start 1 (authorized "GET" "/data" "token-0" "") :: steps 1 22)
      (fun p => decide (p.trace.countP proxiedArrival = 1) &&
        p.trace.any fun y => decide (y.tid = 1) && y.item.isDone fun (o : Response) =>
          decide (o.body = .upstream "hello")) = true := by decide +kernel
  obtain ⟨p, hrun, hcheck⟩ := run_of_plays (world_initial (by decide) (by decide) (by decide)) hplay
  obtain ⟨hcount, hdone⟩ := Bool.and_eq_true_iff.mp hcheck
  obtain ⟨⟨t, w₁, item⟩, hy, hy'⟩ := List.any_eq_true.mp hdone
  obtain ⟨htid, hitem⟩ := Bool.and_eq_true_iff.mp hy'
  obtain rfl : t = 1 := of_decide_eq_true htid
  obtain ⟨o, rfl, hbody⟩ := Item.isDone_eq hitem
  have hcount := of_decide_eq_true hcount
  obtain ⟨hsent, hthreads⟩ := relayed_once hrun
  obtain ⟨post, pre, q, r', htrace, -, hq, -⟩ := answered_ends hrun hy
  have hq' : Started 1 q p.trace :=
    hq.mono (htrace ▸ (List.suffix_cons _ _).trans (List.suffix_append _ _)).subset
  obtain ⟨r, resp, hmem, ho⟩ := (hthreads 1 q hq').2.2 o _ ⟨w₁, hy⟩ (of_decide_eq_true hbody)
  exact ⟨p.world, p.trace, o, hrun, ⟨w₁, hy⟩, hcount, hcount ▸ hsent, r, _, hmem, ho⟩

end Scenario

end ZeroTrustProxy
