import Retrotls.Proof.Address
import Retrotls.Proof.Connection
import Retrotls.Proof.UpstreamUrl

/-!
# The forwarding headers of `proxy.rs`

* `appendCsvHeaderValue_eq`: what is appended to is text, and the result is a header value.
* `requestHeaders_ok`: what `handle_request` sends, header by header.
* `forwarded_chain_iff`: **the `X-Forwarded-For` chain is kept** exactly where the client's
  first line is text and the others have no elements.
* `forwarding_headers_own`: **the forwarding headers are the proxy's own**, whatever the client
  sends.
-/

namespace Retrotls

/-- The text of a value has its bytes. -/
theorem HeaderValue.toStr_some {value : HeaderValue} {text : Str} (h : value.toStr = some text) :
    HeaderValue.fromStatic text = value ∧ ∀ c ∈ text, isVisible c.toNat = true := by
  unfold toStr at h
  obtain ⟨hall, htext⟩ := Option.ite_none_right_eq_some.1 h
  obtain rfl := Option.some.inj htext
  rw [List.all_eq_true] at hall
  have hchar : ∀ b ∈ value, (Char.ofNat b.toNat).toNat = b.toNat := by
    intro b hb
    have hlt := b.toNat_lt
    have hvalid : b.toNat.isValidChar := Or.inl (by omega)
    rw [Char.ofNat, dif_pos hvalid]
    rfl
  constructor
  · unfold fromStatic
    rw [List.map_map]
    have hbyte : ∀ b ∈ value, UInt8.ofNat (Char.ofNat b.toNat).toNat = b := by
      intro b hb
      rw [hchar b hb]
      exact UInt8.ofNat_toNat
    exact (List.map_congr_left hbyte).trans (List.map_id' value)
  · intro c hc
    obtain ⟨b, hb, rfl⟩ := List.mem_map.1 hc
    rw [hchar b hb]
    exact hall b hb

/-- **What is assumed of `HeaderValue::from_str` can be met.** -/
theorem httpCrate_takesVisible : httpCrate.TakesVisible := by
  intro s hs
  refine Crate.parseHeaderValue_ascii fun c hc => ?_
  have hv := hs c hc
  simp only [isVisible, Bool.or_eq_true, Bool.and_eq_true, decide_eq_true_eq] at hv
  exact hv.imp id Char.toNat_inj.1

namespace ProxyRs

variable {H : HttpCrate} {uriError : Str → Str}

/-! ## The elements of a value -/

/-- The bytes around an element: a space, or a tab. -/
def isBlankByte (b : UInt8) : Bool := b = 0x20 || b = 0x09

/-- **The comma-separated elements** of a value, whatever its bytes are. What is empty between two
commas is none. -/
def elements (value : HeaderValue) : List HeaderValue := tokens 0x2c isBlankByte value

/-- The elements of all `X-Forwarded-For` values. -/
def chain (headers : Headers) : List HeaderValue :=
  (headers.getAll .xForwardedFor).flatMap elements

/-- The text that a value is appended to: nothing, for a value that is no text. -/
def existingText (existing : Option HeaderValue) : Str := (existing.bind HeaderValue.toStr).getD []

theorem existingText_visible (existing : Option HeaderValue) :
    ∀ c ∈ existingText existing, isVisible c.toNat = true := by
  unfold existingText
  cases h : existing.bind HeaderValue.toStr with
  | none => simp
  | some text =>
    obtain ⟨value, -, htext⟩ := Option.bind_eq_some_iff.1 h
    exact (HeaderValue.toStr_some htext).2

theorem appendCsv_visible (existing : Option HeaderValue) {value : Str}
    (h : ∀ c ∈ value, isVisible c.toNat = true) :
    ∀ c ∈ appendCsv existing value, isVisible c.toNat = true := by
  have hsep : ∀ c ∈ ", ".toList, isVisible c.toNat = true := List.all_eq_true.1 (by decide)
  have hold := existingText_visible existing
  unfold appendCsv
  simp only
  split
  · exact List.forall_mem_append.2 ⟨List.forall_mem_append.2 ⟨hold, hsep⟩, h⟩
  · exact List.forall_mem_append.2 ⟨hold, h⟩

/-- **The fallback is never used**: text stays a header value when an address is appended. -/
theorem appendCsv_takes (hv : H.TakesVisible) (existing : Option HeaderValue) (addr : SocketAddr) :
    H.parseHeaderValue (appendCsv existing addr.ipText) =
      some (HeaderValue.fromStatic (appendCsv existing addr.ipText)) :=
  hv _ (appendCsv_visible existing fun c hc =>
    SocketAddr.isVisible_of_isAddrChar (SocketAddr.ipText_chars addr c hc))

theorem appendCsvHeaderValue_eq (hv : H.TakesVisible) (existing : Option HeaderValue)
    (addr : SocketAddr) : appendCsvHeaderValue H existing addr.ipText =
      HeaderValue.fromStatic (appendCsv existing addr.ipText) := by
  rw [appendCsvHeaderValue, appendCsv_takes hv, Option.getD_some]

/-- An address is one element. -/
theorem elements_ipText (addr : SocketAddr) :
    elements (HeaderValue.fromStatic addr.ipText) = [HeaderValue.fromStatic addr.ipText] := by
  have hbyte : ∀ b ∈ HeaderValue.fromStatic addr.ipText, b ≠ 0x2c ∧ isBlankByte b = false := by
    intro b hb
    obtain ⟨c, hc, rfl⟩ := List.mem_map.1 hb
    have hb := SocketAddr.isAddrChar_bounds (SocketAddr.ipText_chars addr c hc)
    have hnat : (UInt8.ofNat c.toNat).toNat = c.toNat := by
      rw [UInt8.toNat_ofNat']
      omega
    -- the separator and the blanks come before all characters of an address
    have hne : ∀ b : UInt8, b.toNat < 46 → UInt8.ofNat c.toNat ≠ b := by
      intro b hlt heq
      rw [← heq, hnat] at hlt
      omega
    simp [isBlankByte, hne 0x2c (by decide), hne 0x20 (by decide), hne 0x09 (by decide)]
  refine tokens_singleton ?_ (fun hmem => (hbyte _ hmem).1 rfl) fun b hb => (hbyte b hb).2
  rw [HeaderValue.fromStatic, Ne, List.map_eq_nil_iff]
  exact SocketAddr.ipText_ne_nil addr

/-- **The address is appended** to the elements of the text. -/
theorem elements_appendCsv (existing : Option HeaderValue) (addr : SocketAddr) :
    elements (HeaderValue.fromStatic (appendCsv existing addr.ipText)) =
      elements (HeaderValue.fromStatic (existingText existing)) ++
        [HeaderValue.fromStatic addr.ipText] := by
  unfold appendCsv
  change elements (HeaderValue.fromStatic (if existingText existing ≠ [] then _ else _)) = _
  by_cases hnil : existingText existing = []
  · rw [if_neg (not_not.2 hnil), ← existingText, hnil, List.nil_append, elements_ipText]
    rfl
  · have hsplit : HeaderValue.fromStatic (existingText existing ++ ", ".toList ++ addr.ipText) =
        HeaderValue.fromStatic (existingText existing) ++
          0x2c :: 0x20 :: HeaderValue.fromStatic addr.ipText := by
      simp [HeaderValue.fromStatic]
    rw [if_pos hnil, ← existingText, hsplit, elements, tokens_append,
      tokens_cons (by decide) (by decide)]
    exact congrArg _ (elements_ipText addr)

/-! ## What `handle_request` sends -/

/-- **The forwarding headers**, and the others as they are copied. -/
theorem requestHeaders_ok (hv : H.TakesVisible) (src : Headers) (clientAddr bindAddr : SocketAddr)
    (upstream : Str) : ∃ copied dst, copyRequestHeaders H [] src upstream = .ok copied ∧
      requestHeaders H src clientAddr bindAddr upstream = .ok dst ∧
      dst.getAll .xForwardedFor = [HeaderValue.fromStatic
        (appendCsv (src.get .xForwardedFor) clientAddr.ipText)] ∧
      dst.getAll .xForwardedProto = [HeaderValue.fromStatic "http".toList] ∧
      dst.getAll .xForwardedHost =
        [(src.get .host).getD (HeaderValue.fromStatic bindAddr.display)] ∧
      dst.getAll .host = copied.getAll .host := by
  obtain ⟨copied, hcopied, -⟩ := copyRequest_ok (H := H) src upstream
  have hbind : H.parseHeaderValue bindAddr.display = some (HeaderValue.fromStatic bindAddr.display) :=
    hv _ bindAddr.display_visible
  have hok : requestHeaders H src clientAddr bindAddr upstream = .ok
      (((copied.insert .xForwardedFor
        (HeaderValue.fromStatic (appendCsv (src.get .xForwardedFor) clientAddr.ipText))).insert
          .xForwardedProto (HeaderValue.fromStatic "http".toList)).insert
            .xForwardedHost ((src.get .host).getD (HeaderValue.fromStatic bindAddr.display))) := by
    unfold requestHeaders applyForwardingHeaders
    rw [hcopied, hbind, appendCsvHeaderValue_eq hv]
    rfl
  refine ⟨copied, _, hcopied, hok, ?_, ?_, ?_, ?_⟩
  · rw [Multimap.getAll_insert_ne _ (by decide), Multimap.getAll_insert_ne _ (by decide),
      Multimap.getAll_insert]
  · rw [Multimap.getAll_insert_ne _ (by decide), Multimap.getAll_insert]
  · rw [Multimap.getAll_insert]
  · rw [Multimap.getAll_insert_ne _ (by decide), Multimap.getAll_insert_ne _ (by decide),
      Multimap.getAll_insert_ne _ (by decide)]

/-! ## The chain -/

/-- A value that is no text has an element. -/
theorem elements_ne_nil {value : HeaderValue} (h : value.toStr = none) : elements value ≠ [] := by
  intro hnil
  have hblank := tokens_eq_nil.1 hnil
  have hall : value.all (fun b => isVisible b.toNat) = true := by
    refine List.all_eq_true.2 fun b hb => ?_
    by_cases hcomma : b = 0x2c
    · rw [hcomma]
      decide
    · have hb' := hblank b hb hcomma
      simp only [isBlankByte, Bool.or_eq_true, decide_eq_true_eq] at hb'
      rcases hb' with rfl | rfl <;> decide
  rw [HeaderValue.toStr, if_pos hall] at h
  cases h

/-- What is kept of a value: all of it, if it is text. -/
theorem existingText_some {value : HeaderValue} {text : Str} (h : value.toStr = some text) :
    HeaderValue.fromStatic (existingText (some value)) = value := by
  rw [existingText, Option.bind_some, h, Option.getD_some]
  exact (HeaderValue.toStr_some h).1

theorem existingText_none {value : HeaderValue} (h : value.toStr = none) :
    existingText (some value) = [] := by
  rw [existingText, Option.bind_some, h, Option.getD_none]

/-- **Exactly where the chain is kept**: the first `X-Forwarded-For` value is text, and the
later ones have no elements. -/
theorem forwarded_chain_iff (hv : H.TakesVisible) (src : Headers)
    (clientAddr bindAddr : SocketAddr) (upstream : Str) :
    ∃ dst, requestHeaders H src clientAddr bindAddr upstream = .ok dst ∧
      (chain dst = chain src ++ [HeaderValue.fromStatic clientAddr.ipText] ↔
        ∀ first rest, src.getAll .xForwardedFor = first :: rest →
          first.toStr.isSome = true ∧ ∀ value ∈ rest, elements value = []) := by
  obtain ⟨-, dst, -, hok, hfor, -⟩ := requestHeaders_ok hv src clientAddr bindAddr upstream
  refine ⟨dst, hok, ?_⟩
  have hdst : chain dst = elements (HeaderValue.fromStatic (existingText (src.get .xForwardedFor))) ++
      [HeaderValue.fromStatic clientAddr.ipText] := by
    rw [chain, hfor, List.flatMap_singleton, elements_appendCsv]
  rw [hdst, List.append_left_inj, chain, Multimap.get]
  cases hsrc : src.getAll .xForwardedFor with
  | nil => exact iff_of_true rfl fun first rest h => by cases h
  | cons first rest =>
    have hcond : (∀ f r, first :: rest = f :: r →
        f.toStr.isSome = true ∧ ∀ value ∈ r, elements value = []) ↔
        first.toStr.isSome = true ∧ ∀ value ∈ rest, elements value = [] := by
      constructor
      · intro h
        exact h first rest rfl
      · rintro h f r hfr
        obtain ⟨rfl, rfl⟩ := List.cons.inj hfr
        exact h
    rw [hcond, List.head?_cons, List.flatMap_cons]
    cases htext : first.toStr with
    | none =>
      -- the elements of the first value are lost
      have hne : elements first ++ rest.flatMap elements ≠ [] :=
        List.append_ne_nil_of_left_ne_nil (elements_ne_nil htext) _
      rw [existingText_none htext]
      exact iff_of_false (fun h => hne h.symm) fun h => by cases h.1
    | some text =>
      rw [existingText_some htext, List.self_eq_append_right, List.flatMap_eq_nil_iff]
      exact (and_iff_right rfl).symm

def client : SocketAddr := .v4 0xC0000205 50000

def localBind : SocketAddr := .v4 0x7F000001 8080

def apiText : Str := "https://api.example.com".toList

/-- A client behind two proxies, each with a line of its own. -/
def twoForwardedLines : Headers :=
  [(.xForwardedFor, HeaderValue.fromStatic "203.0.113.10".toList),
    (.host, HeaderValue.fromStatic "app.test".toList),
    (.xForwardedFor, HeaderValue.fromStatic "198.51.100.7".toList)]

theorem forwarded_chain_iff_two :
    ∃ dst, requestHeaders httpCrate twoForwardedLines client localBind apiText = .ok dst ∧
      (chain dst = chain twoForwardedLines ++ [HeaderValue.fromStatic client.ipText] ↔
        ∀ first rest, twoForwardedLines.getAll .xForwardedFor = first :: rest →
          first.toStr.isSome = true ∧ ∀ value ∈ rest, elements value = []) :=
  forwarded_chain_iff httpCrate_takesVisible twoForwardedLines client localBind apiText

/-- The second line is lost. -/
theorem forwarded_chain_shortened :
    ∃ dst, requestHeaders httpCrate twoForwardedLines client localBind apiText = .ok dst ∧
      chain twoForwardedLines = [HeaderValue.fromStatic "203.0.113.10".toList,
        HeaderValue.fromStatic "198.51.100.7".toList] ∧
      chain dst = [HeaderValue.fromStatic "203.0.113.10".toList,
        HeaderValue.fromStatic "192.0.2.5".toList] ∧
      chain dst ≠ chain twoForwardedLines ++ [HeaderValue.fromStatic client.ipText] := by
  obtain ⟨-, dst, -, hok, hfor, -⟩ :=
    requestHeaders_ok httpCrate_takesVisible twoForwardedLines client localBind apiText
  have hdst : chain dst = [HeaderValue.fromStatic "203.0.113.10".toList,
      HeaderValue.fromStatic "192.0.2.5".toList] := by
    rw [chain, hfor]
    decide +kernel
  refine ⟨dst, hok, by decide +kernel, hdst, ?_⟩
  rw [hdst]
  decide +kernel

/-! ## Whose the headers are -/

/-- **The forwarding headers are the proxy's own**, whatever the upstream: one value each.
`X-Forwarded-For` ends with the client's address, which `from_str` takes. -/
structure Forwarded (H : HttpCrate) (clientAddr bindAddr : SocketAddr) (src dst : Headers) :
    Prop where
  forwardedFor : ∃ value, dst.getAll .xForwardedFor = [value] ∧
    H.parseHeaderValue (appendCsv (src.get .xForwardedFor) clientAddr.ipText) = some value ∧
    (elements value).getLast? = some (HeaderValue.fromStatic clientAddr.ipText)
  forwardedProto : dst.getAll .xForwardedProto = [HeaderValue.fromStatic "http".toList]
  forwardedHost : dst.getAll .xForwardedHost =
    [(src.get .host).getD (HeaderValue.fromStatic bindAddr.display)]

/-- And `Host` is the upstream's. -/
structure Unforged (H : HttpCrate) (clientAddr bindAddr : SocketAddr) (authority : Str)
    (src dst : Headers) : Prop extends Forwarded H clientAddr bindAddr src dst where
  host : dst.getAll .host = [HeaderValue.fromStatic authority]

theorem requestHeaders_forwarded (hv : H.TakesVisible) (src : Headers)
    (clientAddr bindAddr : SocketAddr) (upstream : Str) :
    ∃ copied dst, copyRequestHeaders H [] src upstream = .ok copied ∧
      requestHeaders H src clientAddr bindAddr upstream = .ok dst ∧
      Forwarded H clientAddr bindAddr src dst ∧ dst.getAll .host = copied.getAll .host := by
  obtain ⟨copied, dst, hcopied, hok, hfor, hproto, hhost, hcopy⟩ :=
    requestHeaders_ok hv src clientAddr bindAddr upstream
  have hlast : (elements (HeaderValue.fromStatic (appendCsv (src.get .xForwardedFor)
      clientAddr.ipText))).getLast? = some (HeaderValue.fromStatic clientAddr.ipText) := by
    rw [elements_appendCsv, List.getLast?_concat]
  exact ⟨copied, dst, hcopied, hok, ⟨⟨_, hfor, appendCsv_takes hv _ _, hlast⟩, hproto, hhost⟩, hcopy⟩

/-- The `Host` header of an accepted upstream. -/
theorem copyRequest_host (hH : H.Documented) {upstream : Str} {base : Uri} {a : Authority}
    (hbase : H.parseUri upstream = some base) (ha : base.authority = some a) {src dst : Headers}
    (h : copyRequestHeaders H [] src upstream = .ok dst) :
    dst.getAll .host = [HeaderValue.fromStatic a.text] := by
  obtain ⟨t, ht⟩ := hH.uri_authority upstream base a hbase ha
  obtain ⟨rfl, -, hgraphic⟩ := hH.authority_text t a ht
  have hvalue : H.parseHeaderValue a.text = some (HeaderValue.fromStatic a.text) :=
    hH.header_graphic a.text fun c hc => (hgraphic c hc).1
  unfold copyRequestHeaders at h
  simp only [hbase, ha, Option.map_some, Option.getD_some, hvalue, Except.ok.injEq] at h
  rw [← h, Multimap.getAll_insert]

/-- **The forwarding headers cannot be forged**: whatever the client sends, they are the proxy's
own, and `Host` and `X-Forwarded-Proto` do not depend on what it sends. -/
theorem forwarding_headers_own (hH : H.Documented) (hv : H.TakesVisible)
    {listeners : List ConfigRs.ListenerConfig}
    (hls : ConfigRs.validateListeners H uriError listeners = .ok ()) {l : ConfigRs.ListenerConfig}
    (hl : l ∈ listeners) (src : Headers) (clientAddr bindAddr : SocketAddr) :
    ∃ base a dst, H.parseUri l.upstream = some base ∧ base.authority = some a ∧
      requestHeaders H src clientAddr bindAddr l.upstream = .ok dst ∧
      Unforged H clientAddr bindAddr a.text src dst ∧
      ∀ src' dst', requestHeaders H src' clientAddr bindAddr l.upstream = .ok dst' →
        dst'.getAll .host = dst.getAll .host ∧
          dst'.getAll .xForwardedProto = dst.getAll .xForwardedProto := by
  obtain ⟨rest, base, hup, hbase⟩ := accepted_upstream hH hls hl
  obtain ⟨a, ha⟩ : ∃ a, base.authority = some a :=
    ⟨_, parseUri_https_authority hH (hup ▸ hbase)⟩
  -- of any client headers, the request's `Host` is the authority
  have hsent : ∀ src' : Headers, ∃ dst', requestHeaders H src' clientAddr bindAddr l.upstream =
      .ok dst' ∧ Unforged H clientAddr bindAddr a.text src' dst' := by
    intro src'
    obtain ⟨copied, dst', hcopied, hok, hforwarded, hcopy⟩ :=
      requestHeaders_forwarded hv src' clientAddr bindAddr l.upstream
    exact ⟨dst', hok, hforwarded, hcopy.trans (copyRequest_host hH hbase ha hcopied)⟩
  obtain ⟨dst, hok, hown⟩ := hsent src
  refine ⟨base, a, dst, hbase, ha, hok, hown, fun src' dst' hok' => ?_⟩
  obtain ⟨dst'', hok'', hown'⟩ := hsent src'
  have hsame : dst'' = dst' := Except.ok.inj (hok''.symm.trans hok')
  subst hsame
  exact ⟨hown'.host.trans hown.host.symm, hown'.forwardedProto.trans hown.forwardedProto.symm⟩

theorem forwarding_headers_own_two :
    ∃ base a dst, httpCrate.parseUri apiText = some base ∧ base.authority = some a ∧
      requestHeaders httpCrate twoForwardedLines client localBind apiText = .ok dst ∧
      Unforged httpCrate client localBind a.text twoForwardedLines dst ∧
      ∀ src' dst', requestHeaders httpCrate src' client localBind apiText = .ok dst' →
        dst'.getAll .host = dst.getAll .host ∧
          dst'.getAll .xForwardedProto = dst.getAll .xForwardedProto := by
  have hls : ConfigRs.validateListeners httpCrate (fun _ => []) [listenerRs apiText] = .ok () := by
    decide +kernel
  exact forwarding_headers_own httpCrate_documented httpCrate_takesVisible hls List.mem_cons_self
    twoForwardedLines client localBind

end ProxyRs

end Retrotls
