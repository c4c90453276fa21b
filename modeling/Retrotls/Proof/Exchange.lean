import Retrotls.Spec.Exchange
import Retrotls.Lib.Lts

/-!
# One request, step by step and at once

* `Phase.exec_done_iff`: **the steps of `Proxy::forward` and `forward` agree**: the runs that
  return are those along the answers of some network, and they return what `forward`
  returns on that network.
* `Exchange.exec_wired`: what a call has done to the outside, whatever it was answered.
-/

namespace Retrotls

variable {H : HttpCrate} {T : Rustls} {up : Upstream}

namespace Phase

/-! ## The steps -/

/-- The steps of `Proxy::forward`, one by one. -/
inductive Next (H : HttpCrate) (T : Rustls) (up : Upstream) : Phase → Answer → Phase → Prop
  | noBody (parts) : Next H T up (.requestBody parts) (.requestBody none) (.done (.error .requestBody))
  | body (parts bytes) :
      Next H T up (.requestBody parts) (.requestBody (some bytes)) (.connecting parts bytes)
  | refused (parts bytes) :
      Next H T up (.connecting parts bytes) (.connect false) (.done (.error .connect))
  | noName (parts bytes) (h : T.serverName up.host = false) :
      Next H T up (.connecting parts bytes) (.connect true) (.done (.error .serverName))
  | connected (parts bytes) (h : T.serverName up.host = true) :
      Next H T up (.connecting parts bytes) (.connect true) (.tlsConnecting parts bytes)
  | untrusted (parts bytes) :
      Next H T up (.tlsConnecting parts bytes) (.tlsConnect false) (.done (.error .tlsConnect))
  | secured (parts bytes) :
      Next H T up (.tlsConnecting parts bytes) (.tlsConnect true) (.handshaking parts bytes)
  | noHandshake (parts bytes) :
      Next H T up (.handshaking parts bytes) (.handshake false) (.done (.error .handshake))
  | noHost (parts bytes err) (h : outbound H (parts.request (some bytes)) bytes up = .error err) :
      Next H T up (.handshaking parts bytes) (.handshake true) (.done (.error err))
  | send (parts bytes out) (h : outbound H (parts.request (some bytes)) bytes up = .ok out) :
      Next H T up (.handshaking parts bytes) (.handshake true) (.sending out)
  | noResponse (out) : Next H T up (.sending out) (.response none) (.done (.error .sendRequest))
  | response (out resp) : Next H T up (.sending out) (.response (some resp)) (.responseBody resp)
  | noResponseBody (resp) :
      Next H T up (.responseBody resp) (.responseBody none) (.done (.error .responseBody))
  | responseBody (resp bytes) : Next H T up (.responseBody resp) (.responseBody (some bytes))
      (.done (.ok (resp.response (some bytes))))

theorem next_some {p p' : Phase} {a : Answer} (h : p.next H T up a = some p') : Next H T up p a p' := by
  unfold next at h
  split at h
  · rename_i parts body
    cases body <;> cases h
    · exact .noBody parts
    · exact .body parts _
  · rename_i parts bytes ok
    cases ok with
    | false => cases h; exact .refused parts bytes
    | true =>
      cases hn : T.serverName up.host with
      | false => simp only [hn] at h; cases h; exact .noName parts bytes hn
      | true => simp only [hn] at h; cases h; exact .connected parts bytes hn
  · rename_i parts bytes ok
    cases ok <;> cases h
    · exact .untrusted parts bytes
    · exact .secured parts bytes
  · rename_i parts bytes ok
    cases ok with
    | false => cases h; exact .noHandshake parts bytes
    | true =>
      cases ho : outbound H (parts.request (some bytes)) bytes up with
      | error err => simp only [ho] at h; cases h; exact .noHost parts bytes err ho
      | ok out => simp only [ho] at h; cases h; exact .send parts bytes out ho
  · rename_i out resp
    cases resp <;> cases h
    · exact .noResponse out
    · exact .response out _
  · rename_i resp body
    cases body <;> cases h
    · exact .noResponseBody resp
    · exact .responseBody resp _
  · cases h

/-- A call that has returned takes no step. -/
theorem exec_done {r : Except ForwardError Response} {as : List Answer} {p : Phase}
    (h : exec (next H T up) (.done r) as = some p) : as = [] ∧ p = .done r := by
  cases as with
  | nil =>
    rw [exec_nil, Option.some.injEq] at h
    exact ⟨rfl, h.symm⟩
  | cons a as =>
    obtain ⟨p', h₁, -⟩ := exec_cons.1 h
    cases h₁

/-- A call that returns later takes a step now. -/
theorem exec_step {p : Phase} {r : Except ForwardError Response} {as : List Answer}
    (h : exec (next H T up) p as = some (.done r)) (hp : p.isDone = false) :
    ∃ a bs p', as = a :: bs ∧ Next H T up p a p' ∧ exec (next H T up) p' bs = some (.done r) := by
  cases as with
  | nil =>
    rw [exec_nil, Option.some.injEq] at h
    rw [h] at hp
    cases hp
  | cons a as =>
    obtain ⟨p', h₁, h₂⟩ := exec_cons.1 h
    exact ⟨a, as, p', rfl, next_some h₁, h₂⟩

/-! ## The same answers, all at once -/

/-- Along the answers of a network, the call returns what `forward` returns. -/
theorem exec_answers (net : Net) (parts : Parts) (body : Option Bytes) (up : Upstream) :
    exec (next H T up) (.requestBody parts) (net.answers H T parts body up) =
      some (.done (forward H T net (parts.request body) up)) := by
  cases body with
  | none => rfl
  | some bytes =>
    have hb : (parts.request (some bytes)).body = some bytes := rfl
    cases hc : net.connect up.host up.port with
    | false => simp [Net.answers, forward, exec, next, hb, hc]
    | true =>
      cases hn : T.serverName up.host with
      | false => simp [Net.answers, forward, exec, next, hb, hc, hn]
      | true =>
        cases ht : net.tlsConnect up.host with
        | false => simp [Net.answers, forward, exec, next, hb, hc, hn, ht]
        | true =>
          cases hh : net.handshake with
          | false => simp [Net.answers, forward, exec, next, hb, hc, hn, ht, hh]
          | true =>
            cases ho : outbound H (parts.request (some bytes)) bytes up with
            | error err => simp [Net.answers, forward, exec, next, hb, hc, hn, ht, hh, ho]
            | ok out =>
              cases hs : net.sendRequest out with
              | none => simp [Net.answers, forward, exec, next, hb, hc, hn, ht, hh, ho, hs]
              | some resp =>
                cases hr : resp.body <;>
                  simp [Net.answers, forward, exec, next, hb, hc, hn, ht, hh, ho, hs, hr]
                rw [← hr]
                rfl

/-- A request that is sent is answered with a response, or with none. -/
theorem exec_sending {out : Request} {r : Except ForwardError Response} {as : List Answer}
    (h : exec (next H T up) (.sending out) as = some (.done r)) :
    as = [.response none] ∧ r = .error .sendRequest ∨
      ∃ resp : Response, as = [.response (some resp.parts), .responseBody resp.body] ∧
        r = if resp.body.isNone then .error .responseBody else .ok resp := by
  obtain ⟨a, bs, p, rfl, hn, h⟩ := exec_step h rfl
  cases hn with
  | noResponse =>
    obtain ⟨rfl, hr⟩ := exec_done h
    cases hr
    exact Or.inl ⟨rfl, rfl⟩
  | response _ resp =>
    obtain ⟨a, bs, p, rfl, hn, h⟩ := exec_step h rfl
    cases hn with
    | noResponseBody =>
      obtain ⟨rfl, hr⟩ := exec_done h
      cases hr
      exact Or.inr ⟨resp.response none, rfl, rfl⟩
    | responseBody _ bytes =>
      obtain ⟨rfl, hr⟩ := exec_done h
      cases hr
      exact Or.inr ⟨resp.response (some bytes), rfl, rfl⟩

/-- **A run that returns has been answered by some network**, and returns what `forward`
returns on it. -/
theorem exists_net {parts : Parts} {r : Except ForwardError Response} {as : List Answer}
    (h : exec (next H T up) (.requestBody parts) as = some (.done r)) :
    ∃ (net : Net) (body : Option Bytes), as = net.answers H T parts body up ∧
      r = forward H T net (parts.request body) up := by
  have hb : ∀ body, (parts.request body).body = body := fun _ => rfl
  -- every network answers what it was not asked for in some way
  let net : Bool → Bool → Bool → Option Response → Net := fun ok₁ ok₂ ok₃ resp =>
    ⟨fun _ _ => ok₁, fun _ => ok₂, ok₃, fun _ => resp⟩
  obtain ⟨a, bs, p, rfl, hn, h⟩ := exec_step h rfl
  cases hn with
  | noBody =>
    obtain ⟨rfl, hr⟩ := exec_done h
    cases hr
    exact ⟨net true true true none, none, rfl, rfl⟩
  | body _ bytes =>
    obtain ⟨a, bs, p, rfl, hn, h⟩ := exec_step h rfl
    cases hn with
    | refused =>
      obtain ⟨rfl, hr⟩ := exec_done h
      cases hr
      exact ⟨net false true true none, some bytes, by simp [net, Net.answers],
        by simp [net, forward, hb]⟩
    | noName _ _ hname =>
      obtain ⟨rfl, hr⟩ := exec_done h
      cases hr
      exact ⟨net true true true none, some bytes, by simp [net, Net.answers, hname],
        by simp [net, forward, hb, hname]⟩
    | connected _ _ hname =>
      obtain ⟨a, bs, p, rfl, hn, h⟩ := exec_step h rfl
      cases hn with
      | untrusted =>
        obtain ⟨rfl, hr⟩ := exec_done h
        cases hr
        exact ⟨net true false true none, some bytes, by simp [net, Net.answers, hname],
          by simp [net, forward, hb, hname]⟩
      | secured =>
        obtain ⟨a, bs, p, rfl, hn, h⟩ := exec_step h rfl
        cases hn with
        | noHandshake =>
          obtain ⟨rfl, hr⟩ := exec_done h
          cases hr
          exact ⟨net true true false none, some bytes, by simp [net, Net.answers, hname],
            by simp [net, forward, hb, hname]⟩
        | noHost _ _ err ho =>
          obtain ⟨rfl, hr⟩ := exec_done h
          cases hr
          exact ⟨net true true true none, some bytes, by simp [net, Net.answers, hname, ho],
            by simp [net, forward, hb, hname, ho]⟩
        | send _ _ out ho =>
          rcases exec_sending h with ⟨rfl, rfl⟩ | ⟨resp, rfl, rfl⟩
          · exact ⟨net true true true none, some bytes, by simp [net, Net.answers, hname, ho],
              by simp [net, forward, hb, hname, ho]⟩
          · exact ⟨net true true true (some resp), some bytes,
              by simp [net, Net.answers, hname, ho], by simp [net, forward, hb, hname, ho]⟩

/-- **The steps of `Proxy::forward` and `forward` agree.** The runs that return are those
along the answers of some network, and they return what `forward` returns on it. -/
theorem exec_done_iff (parts : Parts) (up : Upstream) (as : List Answer)
    (r : Except ForwardError Response) :
    exec (next H T up) (.requestBody parts) as = some (.done r) ↔
      ∃ (net : Net) (body : Option Bytes), as = net.answers H T parts body up ∧
        r = forward H T net (parts.request body) up := by
  constructor
  · exact exists_net
  · rintro ⟨net, body, rfl, rfl⟩
    exact exec_answers net parts body up

end Phase

/-! ## What the outside sees -/

/-- **What a call has done to the outside**, by the phase it is in. -/
inductive Wired (H : HttpCrate) (T : Rustls) (up : Upstream) (parts : Parts) : Phase → List Wire → Prop
  | requestBody : Wired H T up parts (.requestBody parts) []
  | connecting (bytes) : Wired H T up parts (.connecting parts bytes) [.connect up.host up.port]
  | tlsConnecting (bytes) (h : T.serverName up.host = true) :
      Wired H T up parts (.tlsConnecting parts bytes)
        [.connect up.host up.port, .clientHello up.host]
  | handshaking (bytes) (h : T.serverName up.host = true) :
      Wired H T up parts (.handshaking parts bytes) [.connect up.host up.port, .clientHello up.host]
  | sending (bytes out) (h : T.serverName up.host = true)
      (ho : outbound H (parts.request (some bytes)) bytes up = .ok out) :
      Wired H T up parts (.sending out)
        [.connect up.host up.port, .clientHello up.host, .send out]
  | responseBody (bytes out resp) (h : T.serverName up.host = true)
      (ho : outbound H (parts.request (some bytes)) bytes up = .ok out) :
      Wired H T up parts (.responseBody resp)
        [.connect up.host up.port, .clientHello up.host, .send out]
  | returned (bytes out resp) (h : T.serverName up.host = true)
      (ho : outbound H (parts.request (some bytes)) bytes up = .ok out) :
      Wired H T up parts (.done (.ok resp))
        [.connect up.host up.port, .clientHello up.host, .send out]
  /-- It has failed in an earlier phase. -/
  | failed (p wire err) (h : Wired H T up parts p wire) : Wired H T up parts (.done (.error err)) wire

/-- The host and the port, then the TLS name, then one request: in this order, and no more. -/
theorem Wired.prefix {parts : Parts} {p : Phase} {wire : List Wire} (h : Wired H T up parts p wire) :
    wire <+: [.connect up.host up.port, .clientHello up.host] ∨
      ∃ bytes out, outbound H (parts.request (some bytes)) bytes up = .ok out ∧
        wire = [.connect up.host up.port, .clientHello up.host, .send out] := by
  induction h with
  | requestBody => exact Or.inl List.nil_prefix
  | connecting => exact Or.inl (List.prefix_append [Wire.connect up.host up.port] [.clientHello up.host])
  | tlsConnecting | handshaking => exact Or.inl List.prefix_rfl
  | sending bytes out _ ho => exact Or.inr ⟨bytes, out, ho, rfl⟩
  | responseBody bytes out _ _ ho => exact Or.inr ⟨bytes, out, ho, rfl⟩
  | returned bytes out _ _ ho => exact Or.inr ⟨bytes, out, ho, rfl⟩
  | failed _ _ _ _ ih => exact ih

/-- One step of the call. -/
theorem Wired.step {parts : Parts} {p p' : Phase} {a : Answer} {wire : List Wire}
    (h : Wired H T up parts p wire) (hn : Phase.Next H T up p a p') :
    Wired H T up parts p' (wire ++ p'.begins up) := by
  cases hn with
  | noBody | refused | noName | untrusted | noHandshake | noHost | noResponse | noResponseBody =>
    simp only [Phase.begins, List.append_nil]
    exact .failed _ _ _ h
  | body _ bytes =>
    cases h
    exact .connecting bytes
  | connected _ bytes hname =>
    cases h
    exact .tlsConnecting bytes hname
  | secured _ bytes =>
    cases h with
    | tlsConnecting _ hname => exact .handshaking bytes hname
  | send _ bytes out ho =>
    cases h with
    | handshaking _ hname => exact .sending bytes out hname ho
  | response out resp =>
    cases h with
    | sending bytes _ hname ho => exact .responseBody bytes out resp hname ho
  | responseBody resp bytes =>
    cases h with
    | responseBody bytes' out _ hname ho => exact .returned bytes' out _ hname ho

namespace Exchange

variable {x y : Exchange} {b : ExchangeAct}

/-- What one step of a call can do. -/
theorem next_cases (h : x.next H T b = some y) :
    (∃ a p, b = .answer a ∧ x.dropped = false ∧ Phase.Next H T x.upstream x.phase a p ∧
      y = { x with phase := p, wire := x.wire ++ p.begins x.upstream }) ∨
    (b = .drop ∧ x.active = true ∧ y = { x with dropped := true }) := by
  cases b with
  | answer a =>
    left
    simp only [next] at h
    split at h
    · cases h
    · rename_i hd
      obtain ⟨p, hp, rfl⟩ := Option.map_eq_some_iff.1 h
      exact ⟨a, p, rfl, by simpa using hd, Phase.next_some hp, rfl⟩
  | drop =>
    right
    obtain ⟨ha, rfl⟩ := of_guard h
    exact ⟨rfl, ha, rfl⟩

/-- What a call keeps: its connection, its request and its upstream. -/
theorem next_fixed (h : x.next H T b = some y) :
    y.conn = x.conn ∧ y.upstream = x.upstream ∧ y.parts = x.parts := by
  rcases next_cases h with ⟨a, p, -, -, -, rfl⟩ | ⟨-, -, rfl⟩ <;> exact ⟨rfl, rfl, rfl⟩

/-- The answers of a run. -/
def answers (bs : List ExchangeAct) : List Answer :=
  bs.filterMap fun b => match b with
    | .answer a => some a
    | .drop => none

end Exchange

end Retrotls
