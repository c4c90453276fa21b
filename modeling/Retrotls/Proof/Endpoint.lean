import Retrotls.Proof.Target

/-!
# The endpoint and the names of an upstream

* `endpoint_iff`: the dialed host and port are the ones that the authority's text names
  exactly when its port text, if there is one, is a number below `2 ^ 16`.
* `hostText_cases`: a host without brackets has no colon, so an IPv6 literal is never
  read without its brackets.
* `serving_iff`: a validated configuration serves exactly when every host is a DNS name
  or an IPv4 address.
* `handle_bad_gateway`: a host that is no server name is answered 502 on every request.
-/

namespace Retrotls

variable {H : HttpCrate} {T : Rustls} {raw : Str} {up : Upstream}

/-- The port that an authority's text names: 443 without a port, or with an empty one. -/
def namedPort (a : Str) : Option ℕ :=
  match portText a with
  | none => some 443
  | some [] => some 443
  | some t => parseU16 t

/-- The port text, if there is one, is empty or a number that fits `u16`. -/
def PortOk (a : Str) : Prop :=
  ∀ t, portText a = some t → t ≠ [] → (parseU16 t).isSome

/-- **The endpoint is the one the authority names.** -/
structure EndpointAgrees (up : Upstream) : Prop where
  host : up.host = hostText up.authority
  port : namedPort up.authority = some up.port

theorem upstream_host (hH : H.Documented) (hup : parseUpstream H raw = .ok up) :
    up.host = hostText up.authority := by
  obtain ⟨a, -, -, ha, hat, hhost, -⟩ := parseUpstream_ok.1 hup
  rw [hhost, hat]
  exact hH.host_text _ _ ((parseUpstream_holds hup).authority hH ha)

/-- The dialed port: what `u16::from_str` reads in the port text, or 443. -/
theorem upstream_port (hH : H.Documented) (hup : parseUpstream H raw = .ok up) :
    up.port = ((portText up.authority).bind parseU16).getD 443 := by
  obtain ⟨a, -, -, ha, hat, -, hport⟩ := parseUpstream_ok.1 hup
  rw [hport, hat, hH.port_text _ _ ((parseUpstream_holds hup).authority hH ha)]

theorem endpointAgrees_iff (hH : H.Documented) (hup : parseUpstream H raw = .ok up) :
    EndpointAgrees up ↔ PortOk up.authority := by
  have hport := upstream_port hH hup
  have hiff : namedPort up.authority = some up.port ↔ PortOk up.authority := by
    unfold namedPort PortOk
    cases ht : portText up.authority with
    | none =>
      -- no port text: 443 is named, and dialed
      rw [ht] at hport
      have h443 : up.port = 443 := hport
      simp [h443]
    | some t =>
      rw [ht, Option.bind_some] at hport
      cases t with
      | nil =>
        have h443 : up.port = 443 := hport
        simp [h443]
      | cons c t =>
        cases hn : parseU16 (c :: t) with
        -- the text names no port, and 443 is dialed all the same
        | none => simp [hn]
        | some n =>
          rw [hn, Option.getD_some] at hport
          simp [hn, hport]
  exact ⟨fun h => hiff.1 h.port, fun h => ⟨upstream_host hH hup, hiff.2 h⟩⟩

/-- The Host header and the target of the request that is sent both carry the
authority's text. -/
theorem outbound_authority (hH : H.Documented) (hup : parseUpstream H raw = .ok up)
    (req : Request) (body : Bytes) (hr : H.Holds req.uri) :
    ∃ out, outbound H req body up = .ok out ∧ out.uri.authority = some ⟨up.authority⟩ ∧
      out.headers.getAll "host".toList = [up.authority.map fun c => UInt8.ofNat c.toNat] := by
  obtain ⟨out, hout, hu, hhost⟩ := outbound_ok hH hup req body
  refine ⟨out, hout, ?_, hhost⟩
  rw [hu, buildTargetUri_eq hH hup hr]

/-- **When the endpoint agrees.** The dialed port, the Host header and the target name
the same endpoint exactly when the authority's port text is empty or a number that fits
`u16`. -/
theorem endpoint_iff (hH : H.Documented) {base : Uri} {a : Authority}
    (hbase : H.parseUri raw = some base) (ha : base.authority = some a)
    (hup : parseUpstream H raw = .ok up) :
    (EndpointAgrees up ↔ PortOk a.text) ∧ ∀ req body, H.Holds req.uri →
      ∃ out, outbound H req body up = .ok out ∧ out.uri.authority = some ⟨up.authority⟩ ∧
        out.headers.getAll "host".toList = [up.authority.map fun c => UInt8.ofNat c.toNat] := by
  refine ⟨?_, fun req body hr => outbound_authority hH hup req body hr⟩
  rw [← parseUpstream_text hup hbase ha]
  exact endpointAgrees_iff hH hup

/-- `https://h:99999`, and what `parse_upstream` makes of it. -/
def bigPort : Uri := ⟨some https, some ⟨"h:99999".toList⟩, ⟨[]⟩⟩

def bigPortUpstream : Upstream where
  base := bigPort
  authority := "h:99999".toList
  host := "h".toList
  port := 443

theorem parse_bigPort : parseUpstream httpCrate "https://h:99999".toList = .ok bigPortUpstream := by
  decide +kernel

theorem endpoint_iff_bigPort :
    (EndpointAgrees bigPortUpstream ↔ PortOk "h:99999".toList) ∧ ∀ req body,
      httpCrate.Holds req.uri → ∃ out, outbound httpCrate req body bigPortUpstream = .ok out ∧
        out.uri.authority = some ⟨bigPortUpstream.authority⟩ ∧
        out.headers.getAll "host".toList =
          [bigPortUpstream.authority.map fun c => UInt8.ofNat c.toNat] := by
  have hread : httpCrate.parseUri "https://h:99999".toList = some bigPort := by decide +kernel
  exact endpoint_iff httpCrate_documented hread rfl parse_bigPort

/-- The port 99999 is accepted, and 443 is dialed. -/
theorem big_port_dials_443 :
    parseUpstream httpCrate "https://h:99999".toList = .ok bigPortUpstream ∧
      portText bigPortUpstream.authority = some "99999".toList ∧ bigPortUpstream.port = 443 ∧
      ¬ EndpointAgrees bigPortUpstream := by
  refine ⟨parse_bigPort, by decide +kernel, rfl, fun h => ?_⟩
  exact absurd h.port (by decide +kernel)

/-! ## Names -/

/-- **A host's text** has its brackets, or no colon. -/
theorem hostText_cases (a : Str) : '[' ∈ hostText a ∨ ':' ∉ hostText a := by
  unfold hostText
  dsimp only
  split
  · rename_i hb
    left
    cases hp : hostPort a with
    | nil => rw [hp] at hb; cases hb
    | cons c cs =>
      rw [hp, List.head?_cons, Option.some.injEq] at hb
      rw [hb, List.takeWhile_cons_of_pos (by decide)]
      exact List.mem_append_left _ List.mem_cons_self
  · right
    intro h
    have := List.mem_takeWhile_imp h
    simp at this

/-- An IPv6 literal is never read as a host: it would need its brackets. -/
theorem not_ipv6_hostText (hT : T.Documented) (a : Str) : T.ipv6 (hostText a) = false := by
  by_contra h
  rw [Bool.not_eq_false] at h
  obtain ⟨hc, hb⟩ := hT.ipv6_chars _ h
  rcases hostText_cases a with h' | h'
  · exact hb h'
  · exact h' hc

/-- **The steps of `Proxy::forward` that depend on the configuration alone succeed.** -/
structure Serves (H : HttpCrate) (T : Rustls) (up : Upstream) : Prop where
  serverName : T.serverName up.host = true
  nonempty : up.host ≠ []
  resolvable : T.dnsName up.host = true ∨ T.ipv4 up.host = true ∨ T.ipv6 up.host = true
  hostHeader : (H.parseHeaderValue up.authority).isSome
  forward : ∀ net req, forward H T net req up ≠ .error .serverName ∧
    forward H T net req up ≠ .error .hostHeader

/-- `Proxy::forward` fails for the configuration only at its server name and its Host
header. -/
theorem forward_steps (hs : T.serverName up.host = true)
    (hh : (H.parseHeaderValue up.authority).isSome) (net : Net) (req : Request) :
    forward H T net req up ≠ .error .serverName ∧ forward H T net req up ≠ .error .hostHeader := by
  obtain ⟨v, hv⟩ := Option.isSome_iff_exists.1 hh
  have hout : ∀ body, ∃ out, outbound H req body up = .ok out := fun body =>
    ⟨_, by unfold outbound; rw [hv]⟩
  unfold forward
  cases req.body with
  | none => simp
  | some body =>
    obtain ⟨out, ho⟩ := hout body
    simp only [hs, ho, Bool.not_true, Bool.false_eq_true, if_false]
    cases net.sendRequest out with
    | none => constructor <;> split_ifs <;> simp
    | some resp =>
      cases hb : resp.body with
      | none => constructor <;> split_ifs <;> simp [hb]
      | some b => constructor <;> split_ifs <;> simp [hb]

/-- **A host serves** exactly when it is a DNS name or an IPv4 address. -/
theorem serves_iff (hH : H.Documented) (hT : T.Documented) (hup : parseUpstream H raw = .ok up) :
    Serves H T up ↔ T.dnsName (hostText up.authority) = true ∨
      T.ipv4 (hostText up.authority) = true := by
  have hhost := upstream_host hH hup
  have h6 := not_ipv6_hostText hT up.authority
  rw [← hhost] at h6 ⊢
  constructor
  · intro h
    rcases h.resolvable with h | h | h
    · exact Or.inl h
    · exact Or.inr h
    · rw [h6] at h; cases h
  · intro h
    have hs : T.serverName up.host = true := by
      rw [hT.server_name, h6, Bool.or_false, Bool.or_eq_true]; exact h
    have hh : (H.parseHeaderValue up.authority).isSome := by
      rw [hH.header_graphic up.authority fun c hc => (authority_graphic hH hup hc).1]; rfl
    refine ⟨hs, ?_, ?_, hh, forward_steps hs hh⟩
    · intro hnil
      rw [hnil, hT.dns_nonempty, hT.ipv4_nonempty] at h
      simp at h
    · rcases h with h | h
      · exact Or.inl h
      · exact Or.inr (Or.inl h)

/-- **When a validated configuration serves.** -/
theorem serving_iff (hH : H.Documented) (hT : T.Documented) {c : Config}
    (hc : c.validate H = .ok ()) :
    (∀ l ∈ c.listeners, ∃ up, parseUpstream H l.upstream = .ok up ∧ Serves H T up) ↔
      ∀ l ∈ c.listeners, ∀ base a, H.parseUri l.upstream = some base → base.authority = some a →
        T.dnsName (hostText a.text) = true ∨ T.ipv4 (hostText a.text) = true := by
  have hv := (validate_ok.1 hc).2
  constructor
  · intro h l hl base a hbase ha
    obtain ⟨up, hup, hs⟩ := h l hl
    rw [← parseUpstream_text hup hbase ha]
    exact (serves_iff hH hT hup).1 hs
  · intro h l hl
    obtain ⟨-, up, hup⟩ := hv l hl
    obtain ⟨a, hu, -, ha, hat, -⟩ := parseUpstream_ok.1 hup
    refine ⟨up, hup, (serves_iff hH hT hup).2 ?_⟩
    rw [hat]
    exact h l hl up.base a hu ha

/-- A configuration with one listener. -/
def oneListener (upstream : Str) : Config where
  logLevel := none
  accessLog := false
  shutdownTimeoutSecs := none
  listeners := [⟨.v4 0x7f000001 8080, upstream⟩]

def loopback6 : Str := "https://[::1]:8443".toList

theorem validate_loopback6 : (oneListener loopback6).validate httpCrate = .ok () := by
  decide +kernel

theorem serving_iff_loopback6 :
    (∀ l ∈ (oneListener loopback6).listeners, ∃ up,
      parseUpstream httpCrate l.upstream = .ok up ∧ Serves httpCrate rustls up) ↔
      ∀ l ∈ (oneListener loopback6).listeners, ∀ base a,
        httpCrate.parseUri l.upstream = some base → base.authority = some a →
          rustls.dnsName (hostText a.text) = true ∨ rustls.ipv4 (hostText a.text) = true :=
  serving_iff httpCrate_documented rustls_documented validate_loopback6

/-- The upstream `https://[::1]:8443` is valid, and its host is no server name. -/
theorem loopback6_not_served : (oneListener loopback6).validate httpCrate = .ok () ∧
    ∃ up, parseUpstream httpCrate loopback6 = .ok up ∧ up.host = "[::1]".toList ∧
      rustls.serverName up.host = false ∧ ¬ Serves httpCrate rustls up := by
  refine ⟨validate_loopback6, ⟨⟨some https, some ⟨"[::1]:8443".toList⟩, ⟨[]⟩⟩,
    "[::1]:8443".toList, "[::1]".toList, 8443⟩, by decide +kernel, rfl, by decide +kernel, ?_⟩
  intro h
  exact absurd h.serverName (by decide +kernel)

/-- **A host that is no server name is never served**: whatever the network does, every
request is answered 502. -/
theorem handle_bad_gateway (hs : T.serverName up.host = false) (net : Net) (req : Request) :
    (handle H T net req up).status = 502 := by
  have hf : ∃ err, forward H T net req up = .error err := by
    unfold forward
    cases req.body with
    | none => exact ⟨_, rfl⟩
    | some body =>
      simp only [hs, Bool.not_false, if_true]
      split_ifs <;> exact ⟨_, rfl⟩
  obtain ⟨err, he⟩ := hf
  unfold handle
  rw [he]
  dsimp only
  split <;> rfl

end Retrotls
