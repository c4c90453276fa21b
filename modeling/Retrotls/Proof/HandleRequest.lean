import Retrotls.Proof.Forwarding
import Retrotls.Proof.Target
import Retrotls.Spec.HandleRequest
import Retrotls.Spec.HttpRs

/-!
# What `handle_request` does

* `requestHeaders_own`: the headers that are sent, name by name.
* `handle_request_handled`: one call, by what the outside answers.
* `handle_requests`: **any calls in a row**: each is answered, asks the upstream at most once,
  and logs exactly what the upstream answered.
* `through_hops`: **any proxies in a row**: what is left of a client's headers at the end.
-/

namespace Retrotls.ProxyRs

variable {H : HttpCrate} {uriError : Str → Str} {upstream : Str}

/-! ## Headers that are sent -/

/-- The headers that the proxy writes itself. -/
def ownNames : List HeaderName := [.host, .xForwardedFor, .xForwardedProto, .xForwardedHost]

/-- The headers that are not the proxy's own are as they are copied. -/
theorem requestHeaders_other {src dst : Headers} {clientAddr bindAddr : SocketAddr}
    (hok : requestHeaders H src clientAddr bindAddr upstream = .ok dst) {name : HeaderName}
    (hname : name ∉ ownNames) :
    dst.getAll name = if isHopByHop name.asStr then [] else src.getAll name := by
  simp only [ownNames, List.mem_cons, List.not_mem_nil, or_false, not_or] at hname
  obtain ⟨hhost, hfor, hproto, hforwardedHost⟩ := hname
  obtain ⟨copied, hcopied, hcopy⟩ := copyRequest_ok (H := H) src upstream
  unfold requestHeaders applyForwardingHeaders at hok
  rw [hcopied] at hok
  rw [← Except.ok.inj hok, Multimap.getAll_insert_ne _ hforwardedHost,
    Multimap.getAll_insert_ne _ hproto, Multimap.getAll_insert_ne _ hfor]
  exact hcopy name hhost

/-- What an upstream is sent. `Host` is that of an upstream that `validate_listeners` accepts;
of another nothing is said. -/
structure Sent (H : HttpCrate) (clientAddr bindAddr : SocketAddr) (upstream : Str)
    (src dst : Headers) : Prop where
  forwarded : Forwarded H clientAddr bindAddr src dst
  host : ConfigRs.UpstreamOk H upstream → ∃ base a, H.parseUri upstream = some base ∧
    base.authority = some a ∧ dst.getAll .host = [HeaderValue.fromStatic a.text]
  other : ∀ name, name ∉ ownNames →
    dst.getAll name = if isHopByHop name.asStr then [] else src.getAll name

theorem requestHeaders_sent (hH : H.Documented) (hv : H.TakesVisible) (src : Headers)
    (clientAddr bindAddr : SocketAddr) (upstream : Str) :
    ∃ dst, requestHeaders H src clientAddr bindAddr upstream = .ok dst ∧
      Sent H clientAddr bindAddr upstream src dst := by
  obtain ⟨copied, dst, hcopied, hok, hforwarded, hcopy⟩ :=
    requestHeaders_forwarded hv src clientAddr bindAddr upstream
  refine ⟨dst, hok, hforwarded, fun hup => ?_, fun name hname => requestHeaders_other hok hname⟩
  obtain ⟨⟨rest, rfl⟩, hread⟩ := hup
  obtain ⟨base, hbase⟩ := Option.isSome_iff_exists.1 hread
  have ha := parseUri_https_authority hH hbase
  exact ⟨base, _, hbase, ha, hcopy.trans (copyRequest_host hH hbase ha hcopied)⟩

/-! ## One call -/

variable {β : Type}

/-- A call of `handle_request`, and what the outside answers to it. -/
structure Call (β : Type) where
  outside : Outside β
  req : Request β
  clientAddr : SocketAddr
  bindAddr : SocketAddr
  upstream : Str

namespace Call

/-- The URL that is asked for. -/
def url (c : Call β) : Option Uri :=
  c.outside.buildUpstreamUrl c.upstream c.req.uri.path c.req.uri.query

/-- The line in the access log. -/
def access (c : Call β) (status : ℕ) : AccessEvent :=
  ⟨c.clientAddr, c.bindAddr, c.upstream, c.req.method, c.req.uri.path, status, c.outside.latencyMs⟩

def run (H : HttpCrate) (c : Call β) : Prog (World β) AppError (Response (BoxBody β)) :=
  handleRequest H c.outside c.req c.clientAddr c.bindAddr c.upstream

/-- **The request for the upstream**: the client's, but for its URL and headers. -/
structure Asks (H : HttpCrate) (c : Call β) (out : Request β) : Prop where
  url : c.url = some out.uri
  method : out.method = c.req.method
  version : out.version = c.req.version
  body : out.body = c.req.body
  headers : Sent H c.clientAddr c.bindAddr c.upstream c.req.headers out.headers

end Call

/-- **The response for the client**: the upstream's, but for its hop-by-hop headers and those
that its first `Connection` line lists. -/
structure Relays (res : Response β) (resp : Response (BoxBody β)) : Prop where
  status : resp.status = res.status
  version : resp.version = res.version
  body : resp.body = .incoming res.body
  dropped : ∀ name, isHopByHop name.asStr = true ∨
      (∃ value, res.headers.get .connection = some value ∧ Lists value name) →
    resp.headers.getAll name = []
  kept : ∀ name, isHopByHop name.asStr = false →
      (∀ value, res.headers.get .connection = some value → ¬ Lists value name) →
    resp.headers.getAll name = res.headers.getAll name

/-- What `handle_request` makes of a response. -/
def relayed (res : Response β) : Response (BoxBody β) where
  status := res.status
  version := res.version
  headers := copyResponseHeaders [] res.headers
  body := .incoming res.body

theorem relays_relayed (res : Response β) : Relays res (relayed res) := by
  refine ⟨rfl, rfl, rfl, fun name hname => ?_, fun name hhop hlists => ?_⟩
  · rw [relayed, getAll_copyResponse, if_pos]
    rw [Bool.or_eq_true, decide_eq_true_eq, mem_connectionHeaderTokens]
    exact hname
  · rw [relayed, getAll_copyResponse, if_neg]
    rw [hhop, Bool.false_or, decide_eq_true_eq, mem_connectionHeaderTokens]
    rintro ⟨value, hfirst, hvalue⟩
    exact hlists value hfirst hvalue

/-- **What a call does**: its response, what it asks of the upstream, and what it logs. -/
inductive Handled (H : HttpCrate) (c : Call β) :
    Response (BoxBody β) → List (Request β) → List AccessEvent → Prop
  /-- There is no URL. -/
  | rejected (hurl : c.url = none) : Handled H c (errorResponse 400 "bad request".toList) [] []
  | failed {out : Request β} (hout : c.Asks H out)
      (hreq : c.outside.request out = .failed false) :
      Handled H c (errorResponse 502 "bad gateway".toList) [out] []
  | timedOut {out : Request β} (hout : c.Asks H out)
      (hreq : c.outside.request out = .failed true) :
      Handled H c (errorResponse 504 "gateway timeout".toList) [out] []
  | elapsed {out : Request β} (hout : c.Asks H out) (hreq : c.outside.request out = .elapsed) :
      Handled H c (errorResponse 504 "gateway timeout".toList) [out] []
  | answered {out : Request β} {res : Response β} {resp : Response (BoxBody β)} (hout : c.Asks H out)
      (hreq : c.outside.request out = .response res) (hres : Relays res resp) :
      Handled H c resp [out] [c.access res.status]

/-- The response and the log, once the upstream is asked. -/
def Call.settle (c : Call β) (out : Request β) : Response (BoxBody β) × List AccessEvent :=
  match c.outside.request out with
  | .failed isTimeout => (mapUpstreamClientError isTimeout, [])
  | .elapsed => (errorResponse 504 "gateway timeout".toList, [])
  | .response res => (relayed res, [c.access res.status])

theorem Call.settle_handled {c : Call β} {out : Request β} (hout : c.Asks H out) :
    Handled H c (c.settle out).1 [out] (c.settle out).2 := by
  unfold Call.settle
  cases hreq : c.outside.request out with
  | failed isTimeout =>
    cases isTimeout with
    | false => exact .failed hout hreq
    | true => exact .timedOut hout hreq
  | elapsed => exact .elapsed hout hreq
  | response res => exact .answered hout hreq (relays_relayed res)

theorem Call.run_none {c : Call β} (hurl : c.url = none) (w : World β) :
    c.run H w = (.ok (errorResponse 400 "bad request".toList), w) := by
  unfold Call.url at hurl
  unfold Call.run handleRequest
  simp only [hurl]
  rfl

/-- The headers never end the call. -/
theorem Call.run_some {c : Call β} {uri : Uri} {dst : Headers} (hurl : c.url = some uri)
    (hok : requestHeaders H c.req.headers c.clientAddr c.bindAddr c.upstream = .ok dst) (w : World β) :
    let out : Request β := { c.req with uri := uri, headers := dst }
    c.run H w =
      (.ok (c.settle out).1, ⟨w.requested ++ [out], w.accesses ++ (c.settle out).2⟩) := by
  obtain ⟨copied, hcopied, -⟩ := copyRequest_ok (H := H) c.req.headers c.upstream
  unfold requestHeaders at hok
  rw [hcopied] at hok
  change applyForwardingHeaders H copied c.req.headers c.clientAddr c.bindAddr = .ok dst at hok
  unfold Call.url at hurl
  unfold Call.run handleRequest Call.settle
  simp only [hurl, hcopied, hok, Prog.ofExcept_ok_bind]
  generalize c.outside.request { c.req with uri := uri, headers := dst } = answer
  cases answer with
  | failed isTimeout => exact Prod.ext rfl (congrArg (World.mk _) (List.append_nil _).symm)
  | elapsed => exact Prod.ext rfl (congrArg (World.mk _) (List.append_nil _).symm)
  | response res => rfl

/-- **One call** returns a response, whatever the outside answers. -/
theorem handle_request_handled (hH : H.Documented) (hv : H.TakesVisible) (c : Call β)
    (w : World β) : ∃ resp requested accesses, Handled H c resp requested accesses ∧ c.run H w =
      (.ok resp, ⟨w.requested ++ requested, w.accesses ++ accesses⟩) := by
  cases hurl : c.url with
  | none =>
    refine ⟨_, [], [], .rejected hurl, ?_⟩
    rw [Call.run_none hurl, List.append_nil, List.append_nil]
  | some uri =>
    obtain ⟨dst, hok, hsent⟩ :=
      requestHeaders_sent hH hv c.req.headers c.clientAddr c.bindAddr c.upstream
    have hout : c.Asks H { c.req with uri := uri, headers := dst } := ⟨hurl, rfl, rfl, rfl, hsent⟩
    exact ⟨_, _, _, Call.settle_handled hout, Call.run_some hurl hok w⟩

/-! ## Calls in a row -/

/-- What a call leaves. -/
structure Done (β : Type) where
  resp : Response (BoxBody β)
  requested : List (Request β)
  accesses : List AccessEvent

/-- Calls in a row. -/
def runAll (H : HttpCrate) : List (Call β) → Prog (World β) AppError (List (Response (BoxBody β)))
  | [] => pure []
  | c :: calls => do
    let resp ← c.run H
    let resps ← runAll H calls
    pure (resp :: resps)

/-- **Any calls in a row**, to any upstreams: every call is answered, for itself, and what the
proxy has asked and logged is what they did, in order. -/
theorem handle_requests (hH : H.Documented) (hv : H.TakesVisible) (calls : List (Call β))
    (w : World β) :
    ∃ dones : List (Done β), List.Forall₂ (fun c d => Handled H c d.resp d.requested d.accesses)
        calls dones ∧
      runAll H calls w = (.ok (dones.map (·.resp)),
        ⟨w.requested ++ dones.flatMap (·.requested), w.accesses ++ dones.flatMap (·.accesses)⟩) := by
  induction calls generalizing w with
  | nil =>
    refine ⟨[], .nil, ?_⟩
    rw [List.flatMap_nil, List.flatMap_nil, List.append_nil, List.append_nil]
    rfl
  | cons c calls ih =>
    obtain ⟨resp, requested, accesses, hc, hrun⟩ :=
      handle_request_handled hH hv c w
    obtain ⟨dones, hall, hrest⟩ := ih ⟨w.requested ++ requested, w.accesses ++ accesses⟩
    refine ⟨⟨resp, requested, accesses⟩ :: dones, .cons hc hall, ?_⟩
    unfold runAll
    simp only [bind, hrun, hrest, List.flatMap_cons, List.append_assoc]
    rfl

/-- A call whose URL is built by `http.rs`. -/
def apiCall (answer : Answer Bytes) : Call Bytes where
  outside := {
    buildUpstreamUrl := fun upstream path query =>
      HttpRs.buildUpstreamUrl httpCrate upstream (path ++ queryText query)
    request := fun _ => answer
    latencyMs := 12 }
  req := ⟨"GET".toList, v1Test, .http11, twoForwardedLines, []⟩
  clientAddr := client
  bindAddr := localBind
  upstream := apiText

/-- One that is answered, and one that is not in time. -/
def twoCalls : List (Call Bytes) := [apiCall (.response ⟨200, .http11, [], []⟩), apiCall .elapsed]

theorem handle_requests_two :
    ∃ dones : List (Done Bytes), List.Forall₂
        (fun c d => Handled httpCrate c d.resp d.requested d.accesses) twoCalls dones ∧
      runAll httpCrate twoCalls ⟨[], []⟩ = (.ok (dones.map (·.resp)),
        ⟨[] ++ dones.flatMap (·.requested), [] ++ dones.flatMap (·.accesses)⟩) :=
  handle_requests httpCrate_documented httpCrate_takesVisible twoCalls ⟨[], []⟩

/-! ## Proxies in a row -/

/-- One proxy on the way of a request. -/
structure Hop where
  clientAddr : SocketAddr
  bindAddr : SocketAddr
  upstream : Str

/-- The headers after some proxies. -/
def throughHops (H : HttpCrate) (hops : List Hop) (src : Headers) : Except AppError Headers :=
  hops.foldlM (fun headers hop =>
    requestHeaders H headers hop.clientAddr hop.bindAddr hop.upstream) src

/-- The elements that the next proxy keeps: those of the first value, if it is text. -/
def keptElements (headers : Headers) : List HeaderValue :=
  elements (HeaderValue.fromStatic (existingText (headers.get .xForwardedFor)))

/-- Text is read back from its bytes. -/
theorem toStr_fromStatic {text : Str} (h : ∀ c ∈ text, isVisible c.toNat = true) :
    (HeaderValue.fromStatic text).toStr = some text := by
  have hnat : ∀ c ∈ text, (UInt8.ofNat c.toNat).toNat = c.toNat := by
    intro c hc
    have hvis := h c hc
    simp only [isVisible, Bool.or_eq_true, Bool.and_eq_true, decide_eq_true_eq] at hvis
    rw [UInt8.toNat_ofNat']
    omega
  have hall : (HeaderValue.fromStatic text).all (fun b => isVisible b.toNat) = true := by
    refine List.all_eq_true.2 fun b hb => ?_
    obtain ⟨c, hc, rfl⟩ := List.mem_map.1 hb
    rw [hnat c hc]
    exact h c hc
  rw [HeaderValue.toStr, if_pos hall, HeaderValue.fromStatic, List.map_map]
  have hchar : ∀ c ∈ text, Char.ofNat (UInt8.ofNat c.toNat).toNat = c := by
    intro c hc
    rw [hnat c hc]
    exact Char.ofNat_toNat c
  exact congrArg some ((List.map_congr_left hchar).trans (List.map_id' text))

/-- One proxy keeps what was kept, and appends the address of its client. -/
theorem hop_step (hv : H.TakesVisible) (src : Headers) (hop : Hop) :
    ∃ dst, requestHeaders H src hop.clientAddr hop.bindAddr hop.upstream = .ok dst ∧
      keptElements dst = keptElements src ++ [HeaderValue.fromStatic hop.clientAddr.ipText] ∧
      chain dst = keptElements dst := by
  obtain ⟨-, dst, -, hok, hfor, -⟩ := requestHeaders_ok hv src hop.clientAddr hop.bindAddr hop.upstream
  have hvisible := appendCsv_visible (src.get .xForwardedFor) fun c hc =>
    SocketAddr.isVisible_of_isAddrChar (SocketAddr.ipText_chars hop.clientAddr c hc)
  have hread : existingText (dst.get .xForwardedFor) =
      appendCsv (src.get .xForwardedFor) hop.clientAddr.ipText := by
    rw [Multimap.get, hfor, List.head?_cons, existingText, Option.bind_some,
      toStr_fromStatic hvisible, Option.getD_some]
  have hkept : keptElements dst =
      keptElements src ++ [HeaderValue.fromStatic hop.clientAddr.ipText] := by
    rw [keptElements, hread, elements_appendCsv, keptElements]
  refine ⟨dst, hok, hkept, ?_⟩
  rw [chain, hfor, List.flatMap_singleton, keptElements, hread]

/-- The copy of a response, as a filter. -/
theorem copyResponseHeaders_eq (src : Headers) : copyResponseHeaders [] src = src.filter fun e =>
    !(isHopByHop e.1.asStr || e.1.asStr ∈ connectionHeaderTokens (src.get .connection)) := by
  unfold copyResponseHeaders
  rw [Multimap.copyUnless_eq, List.nil_append]
  refine List.filter_congr fun e _ => ?_
  rw [e.1.lower]

/-- A second proxy drops nothing more from a response: `Connection` is gone. -/
theorem copyResponseHeaders_idem (src : Headers) :
    copyResponseHeaders [] (copyResponseHeaders [] src) = copyResponseHeaders [] src := by
  have hconnection : (copyResponseHeaders [] src).get .connection = none := by
    have hhop : isHopByHop HeaderName.connection.asStr = true := by decide
    rw [Multimap.get, getAll_copyResponse, hhop, Bool.true_or, if_pos rfl, List.head?_nil]
  have hkept : ∀ e ∈ copyResponseHeaders [] src, isHopByHop e.1.asStr = false := by
    intro e he
    rw [copyResponseHeaders_eq, List.mem_filter, Bool.not_eq_true', Bool.or_eq_false_iff] at he
    exact he.2.1
  rw [copyResponseHeaders_eq (copyResponseHeaders [] src), hconnection, List.filter_eq_self]
  intro e he
  simp [hkept e he, connectionHeaderTokens]

/-- The headers of a response, back through some proxies. -/
def backThrough (hops : List Hop) (res : Headers) : Headers :=
  hops.foldr (fun _ headers => copyResponseHeaders [] headers) res

theorem backThrough_cons (hop : Hop) (hops : List Hop) (res : Headers) :
    backThrough (hop :: hops) res = copyResponseHeaders [] res := by
  induction hops with
  | nil => rfl
  | cons next rest ih =>
    have hnext : backThrough (hop :: next :: rest) res =
        copyResponseHeaders [] (backThrough (hop :: rest) res) := rfl
    rw [hnext, ih, copyResponseHeaders_idem]

/-- The headers of a request, through any proxies. -/
theorem throughHops_ok (hv : H.TakesVisible) (src : Headers) (hops : List Hop) (hne : hops ≠ []) :
    ∃ dst, throughHops H hops src = .ok dst ∧
      chain dst = keptElements src ++
        hops.map (fun hop => HeaderValue.fromStatic hop.clientAddr.ipText) ∧
      ∀ name, name ∉ ownNames →
        dst.getAll name = if isHopByHop name.asStr then [] else src.getAll name := by
  induction hops generalizing src with
  | nil => exact absurd rfl hne
  | cons hop hops ih =>
    obtain ⟨mid, hok, hkept, hchain⟩ := hop_step hv src hop
    have hother : ∀ name, name ∉ ownNames →
        mid.getAll name = if isHopByHop name.asStr then [] else src.getAll name :=
      fun name hname => requestHeaders_other hok hname
    have hfold : throughHops H (hop :: hops) src = throughHops H hops mid := by
      unfold throughHops
      rw [List.foldlM_cons, hok]
      rfl
    cases hops with
    | nil => exact ⟨mid, hfold, by rw [hchain, hkept, List.map_singleton], hother⟩
    | cons next rest =>
      obtain ⟨dst, hdst, hlast, hrest⟩ := ih mid (List.cons_ne_nil next rest)
      refine ⟨dst, hfold.trans hdst, ?_, fun name hname => ?_⟩
      · rw [hlast, hkept, List.append_assoc, List.map_cons (a := hop)]
        rfl
      · rw [hrest name hname, hother name hname]
        split <;> rfl

/-- **Any proxies in a row**: none of them fails. The last one sends the elements that the first
kept and the addresses of all their clients, in order; and no header that is not the proxies' own
is changed, but hop-by-hop ones are dropped. The client gets what the last one, alone, would make
of the upstream's response. -/
theorem through_hops (hv : H.TakesVisible) (src res : Headers) (hops : List Hop) (hne : hops ≠ []) :
    (∃ dst, throughHops H hops src = .ok dst ∧
      chain dst = keptElements src ++
        hops.map (fun hop => HeaderValue.fromStatic hop.clientAddr.ipText) ∧
      ∀ name, name ∉ ownNames →
        dst.getAll name = if isHopByHop name.asStr then [] else src.getAll name) ∧
    backThrough hops res = copyResponseHeaders [] res := by
  obtain ⟨hop, rest, rfl⟩ := List.exists_cons_of_ne_nil hne
  exact ⟨throughHops_ok hv src (hop :: rest) hne, backThrough_cons hop rest res⟩

theorem through_hops_three : (∃ dst,
    throughHops httpCrate [⟨client, localBind, apiText⟩, ⟨localBind, client, apiText⟩,
      ⟨client, client, apiText⟩] twoForwardedLines = .ok dst ∧
    chain dst = keptElements twoForwardedLines ++
      [HeaderValue.fromStatic client.ipText, HeaderValue.fromStatic localBind.ipText,
        HeaderValue.fromStatic client.ipText] ∧
    ∀ name, name ∉ ownNames →
      dst.getAll name = if isHopByHop name.asStr then [] else twoForwardedLines.getAll name) ∧
    backThrough [⟨client, localBind, apiText⟩, ⟨localBind, client, apiText⟩,
      ⟨client, client, apiText⟩] twoConnectionLines = copyResponseHeaders [] twoConnectionLines :=
  through_hops httpCrate_takesVisible twoForwardedLines twoConnectionLines _ (List.cons_ne_nil _ _)

end Retrotls.ProxyRs
