import Retrotls.Proof.Crates
import Retrotls.Spec.HttpRs
import Retrotls.Spec.ProxyRs

/-!
# The hop-by-hop filters of `http.rs` and `proxy.rs`

* `isHopByHopHeader_iff`, `isHopByHop_iff`: the classifiers, as lists of names.
* `filters_agree`: **the filter in place and the copying one** leave the same values, and
  leave their own results as they are.
* `forward_request_lossless`: `forward_request_headers` loses and repeats nothing.
* `classifiers_agree_iff`: **the two files drop the same headers** exactly where none of
  three names is there.
-/

namespace Retrotls

/-! ## Names -/

theorem eqIgnoreAsciiCase_iff {s t : Str} :
    eqIgnoreAsciiCase s t = true ↔ toAsciiLowercase s = toAsciiLowercase t := beq_iff_eq

namespace HeaderName

theorem eq_iff {m n : HeaderName} : m = n ↔ m.asStr = n.asStr := by
  obtain ⟨s, hs⟩ := m
  obtain ⟨t, ht⟩ := n
  exact mk.injEq s hs t ht ▸ Iff.rfl

/-- A name has no upper-case letters. -/
theorem lower (n : HeaderName) : toAsciiLowercase n.asStr = n.asStr := by
  have hmarks : ∀ c ∈ "!#$%&'*+-.^_`|~".toList, (c.toLower == c) = true :=
    List.all_eq_true.1 (by decide)
  have hself : ∀ c ∈ n.asStr, c.toLower = c := by
    intro c hc
    have hok := List.all_eq_true.1 n.ok.2 c hc
    simp only [isNameChar, Bool.or_eq_true, Bool.and_eq_true, decide_eq_true_eq] at hok
    rcases hok with (hdigit | hletter) | hmark
    · refine toLower_of_not_upper ?_
      have hd : c.toNat ≤ 57 := by
        simp only [Char.isDigit, Bool.and_eq_true, decide_eq_true_eq] at hdigit
        exact hdigit.2
      omega
    · exact toLower_of_not_upper (by omega)
    · exact beq_iff_eq.1 (hmarks c hmark)
  exact (List.map_congr_left hself).trans (List.map_id' n.asStr)

/-- Removing by a text removes the names that it spells. -/
theorem fromBytes_cases (s : Str) :
    (∃ n, fromBytes s = some n ∧ n.asStr = toAsciiLowercase s) ∨
      fromBytes s = none ∧ ∀ n : HeaderName, n.asStr ≠ toAsciiLowercase s := by
  unfold fromBytes
  by_cases h : toAsciiLowercase s ≠ [] ∧ (toAsciiLowercase s).all isNameChar = true
  · exact Or.inl ⟨_, dif_pos h, rfl⟩
  · refine Or.inr ⟨dif_neg h, fun n hn => h ?_⟩
    rw [← hn]
    exact n.ok

end HeaderName

theorem Headers.removeStr_eq (headers : Headers) (s : Str) :
    headers.removeStr s = headers.filter fun e => !eqIgnoreAsciiCase e.1.asStr s := by
  have hkey : ∀ n : HeaderName, eqIgnoreAsciiCase n.asStr s = true ↔ n.asStr = toAsciiLowercase s := by
    intro n
    rw [eqIgnoreAsciiCase_iff, n.lower]
  unfold removeStr
  rcases HeaderName.fromBytes_cases s with ⟨m, hm, hms⟩ | ⟨hnone, hne⟩
  · rw [hm]
    refine List.filter_congr fun e _ => ?_
    rw [Bool.eq_iff_iff, Bool.not_eq_true', Bool.eq_false_iff, decide_eq_true_eq, Ne, Ne, hkey,
      HeaderName.eq_iff, hms]
  · rw [hnone, eq_comm, List.filter_eq_self]
    intro e _
    rw [Bool.not_eq_true', Bool.eq_false_iff, Ne, hkey]
    exact hne e.1

namespace HttpRs

/-! ## `http.rs` -/

/-- **The classifier of `http.rs`** is a list of names in lower case. -/
theorem isHopByHopHeader_iff {s : Str} :
    isHopByHopHeader s = true ↔ toAsciiLowercase s ∈ hopByHopHeaders := by
  have hlower : ∀ t ∈ hopByHopHeaders, toAsciiLowercase t = t := by decide
  unfold isHopByHopHeader
  rw [List.any_eq_true]
  constructor
  · rintro ⟨t, ht, heq⟩
    rw [eqIgnoreAsciiCase_iff.1 heq, hlower t ht]
    exact ht
  · intro hs
    exact ⟨_, hs, eqIgnoreAsciiCase_iff.2 (toAsciiLowercase_idem s).symm⟩

/-- All spellings of a name are classified alike. -/
theorem isHopByHopHeader_congr {s t : Str} (h : eqIgnoreAsciiCase s t = true) :
    isHopByHopHeader s = isHopByHopHeader t := by
  rw [Bool.eq_iff_iff, isHopByHopHeader_iff, isHopByHopHeader_iff, eqIgnoreAsciiCase_iff.1 h]

/-- Removing names one after the other. -/
theorem foldl_removeStr (names : List Str) (headers : Headers) :
    names.foldl Headers.removeStr headers =
      headers.filter fun e => !names.any fun s => eqIgnoreAsciiCase e.1.asStr s := by
  induction names generalizing headers with
  | nil => exact (List.filter_eq_self.2 fun _ _ => rfl).symm
  | cons s names ih =>
    rw [List.foldl_cons, ih, Headers.removeStr_eq, List.filter_filter]
    refine List.filter_congr fun e _ => ?_
    rw [List.any_cons, Bool.not_or, Bool.and_comm]

/-- **The filter in place** is a filter of the entries. -/
theorem filterHopByHopHeaders_eq (headers : Headers) : filterHopByHopHeaders headers =
    headers.filter fun e => !isHopByHopHeader e.1.asStr := foldl_removeStr hopByHopHeaders headers

/-- **The copying filter** is a filter of the entries. -/
theorem forwardResponseHeaders_eq (src : Headers) : forwardResponseHeaders src [] =
    src.filter fun e => !isHopByHopHeader e.1.asStr := Multimap.copyUnless_eq _ [] src

/-- What the copying filter keeps. -/
theorem getAll_forwardResponse (src : Headers) (name : HeaderName) :
    (forwardResponseHeaders src []).getAll name =
      if isHopByHopHeader name.asStr then [] else src.getAll name :=
  Multimap.getAll_copyUnless (fun name : HeaderName => isHopByHopHeader name.asStr) src name

/-- **The two filters agree**, and are idempotent. A name keeps its values where no spelling
of it is hop-by-hop, and has none left otherwise. -/
theorem filters_agree (headers : Headers) :
    (∀ name, (filterHopByHopHeaders headers).getAll name =
      (forwardResponseHeaders headers []).getAll name) ∧
    filterHopByHopHeaders (filterHopByHopHeaders headers) = filterHopByHopHeaders headers ∧
    forwardResponseHeaders (forwardResponseHeaders headers []) [] =
      forwardResponseHeaders headers [] ∧
    ∀ name : HeaderName,
      ((∀ s, eqIgnoreAsciiCase s name.asStr = true → isHopByHopHeader s = false) →
        (filterHopByHopHeaders headers).getAll name = headers.getAll name) ∧
      ((∃ s, eqIgnoreAsciiCase s name.asStr = true ∧ isHopByHopHeader s = true) →
        (filterHopByHopHeaders headers).getAll name = []) := by
  have hsame : filterHopByHopHeaders headers = forwardResponseHeaders headers [] := by
    rw [filterHopByHopHeaders_eq, forwardResponseHeaders_eq]
  have hidem : ∀ l : Headers, (l.filter fun e => !isHopByHopHeader e.1.asStr).filter
      (fun e => !isHopByHopHeader e.1.asStr) = l.filter fun e => !isHopByHopHeader e.1.asStr := by
    intro l
    simp only [List.filter_filter, Bool.and_self]
  refine ⟨fun name => by rw [hsame], ?_, ?_, ?_⟩
  · rw [filterHopByHopHeaders_eq, filterHopByHopHeaders_eq, hidem]
  · rw [forwardResponseHeaders_eq, forwardResponseHeaders_eq, hidem]
  · intro name
    rw [hsame, getAll_forwardResponse]
    constructor
    · intro hall
      rw [hall name.asStr (eqIgnoreAsciiCase_iff.2 rfl), if_neg Bool.false_ne_true]
    · rintro ⟨s, hs, hhop⟩
      rw [← isHopByHopHeader_congr hs, hhop, if_pos rfl]

/-- **`forward_request_headers` loses and repeats nothing.** `Host` is the upstream's, and only
an absent `X-Forwarded-For` is filled in. -/
theorem forward_request_lossless {H : HttpCrate} {upstreamHost : Str} {hostValue : HeaderValue}
    (hhost : H.parseHeaderValue upstreamHost = some hostValue) (src : Headers) :
    (∀ name : HeaderName, name ≠ .host → name.asStr ∉ hopByHopHeaders →
      (name = .xForwardedFor → src.getAll name ≠ []) →
      (forwardRequestHeaders H src [] upstreamHost).getAll name = src.getAll name) ∧
    (src.getAll .xForwardedFor = [] →
      (forwardRequestHeaders H src [] upstreamHost).getAll .xForwardedFor =
        [HeaderValue.fromStatic "unknown".toList]) ∧
    (∀ (name : HeaderName) (hop : Str), hop ∈ hopByHopHeaders →
      eqIgnoreAsciiCase name.asStr hop = true →
      (forwardRequestHeaders H src [] upstreamHost).getAll name = []) ∧
    (forwardRequestHeaders H src [] upstreamHost).getAll .host = [hostValue] := by
  have hcopy := Multimap.getAll_copyUnless (fun name : HeaderName => isHopByHopHeader name.asStr) src
  generalize hdst : Multimap.copyUnless (fun name : HeaderName => isHopByHopHeader name.asStr) []
    src = dst at hcopy
  -- the map before `x-forwarded-for` is looked up
  have hfwd : forwardRequestHeaders H src [] upstreamHost =
      if !(dst.insert .host hostValue).containsKey .xForwardedFor then
        (dst.insert .host hostValue).insert .xForwardedFor (HeaderValue.fromStatic "unknown".toList)
      else dst.insert .host hostValue := by
    unfold forwardRequestHeaders setHostHeader
    simp only [hdst, hhost]
  have hkept : (dst.insert .host hostValue).getAll .xForwardedFor = src.getAll .xForwardedFor := by
    rw [Multimap.getAll_insert_ne _ (by decide), hcopy, if_neg (by decide)]
  have hfilled : ∀ name : HeaderName, name ≠ .xForwardedFor →
      (forwardRequestHeaders H src [] upstreamHost).getAll name =
        (dst.insert .host hostValue).getAll name := by
    intro name hn
    rw [hfwd]
    split
    · exact Multimap.getAll_insert_ne _ hn _
    · rfl
  have hother : ∀ name : HeaderName, name ≠ .host →
      (dst.insert .host hostValue).getAll name =
        if isHopByHopHeader name.asStr then [] else src.getAll name := by
    intro name hn
    rw [Multimap.getAll_insert_ne _ hn, hcopy]
  refine ⟨?_, ?_, ?_, ?_⟩
  · intro name hn hhop hxff
    have hno : isHopByHopHeader name.asStr = false := by
      rw [Bool.eq_false_iff, Ne, isHopByHopHeader_iff, name.lower]
      exact hhop
    by_cases hx : name = .xForwardedFor
    · subst hx
      have hsome : (dst.insert .host hostValue).containsKey .xForwardedFor = true := by
        rw [← Bool.not_eq_false, Multimap.containsKey_eq_false, hkept]
        exact hxff rfl
      rw [hfwd, hsome, if_neg (by decide), hkept]
    · rw [hfilled name hx, hother name hn, hno, if_neg Bool.false_ne_true]
  · intro hnone
    have hno : (dst.insert .host hostValue).containsKey .xForwardedFor = false := by
      rw [Multimap.containsKey_eq_false, hkept]
      exact hnone
    rw [hfwd, hno, if_pos Bool.not_false, Multimap.getAll_insert]
  · intro name hop hmem heq
    have hhop : isHopByHopHeader name.asStr = true := List.any_eq_true.2 ⟨hop, hmem, heq⟩
    have hne : ∀ other : HeaderName, isHopByHopHeader other.asStr = false → name ≠ other := by
      rintro other hother rfl
      rw [hhop] at hother
      cases hother
    rw [hfilled name (hne _ (by decide)), hother name (hne _ (by decide)), hhop, if_pos rfl]
  · rw [hfilled _ (by decide), Multimap.getAll_insert]

/-- A request with two `Accept` lines, two `Host` lines and no `X-Forwarded-For`. -/
def twiceHeaders : Headers :=
  [(⟨"accept".toList, by decide⟩, HeaderValue.fromStatic "text/html".toList),
    (.host, HeaderValue.fromStatic "a.test".toList),
    (⟨"te".toList, by decide⟩, HeaderValue.fromStatic "gzip".toList),
    (⟨"accept".toList, by decide⟩, HeaderValue.fromStatic "*/*".toList),
    (.host, HeaderValue.fromStatic "b.test".toList)]

def apiHost : Str := "api.example.com".toList

theorem forward_request_lossless_twice :
    (∀ name : HeaderName, name ≠ .host → name.asStr ∉ hopByHopHeaders →
      (name = .xForwardedFor → twiceHeaders.getAll name ≠ []) →
      (forwardRequestHeaders httpCrate twiceHeaders [] apiHost).getAll name =
        twiceHeaders.getAll name) ∧
    (twiceHeaders.getAll .xForwardedFor = [] →
      (forwardRequestHeaders httpCrate twiceHeaders [] apiHost).getAll .xForwardedFor =
        [HeaderValue.fromStatic "unknown".toList]) ∧
    (∀ (name : HeaderName) (hop : Str), hop ∈ hopByHopHeaders →
      eqIgnoreAsciiCase name.asStr hop = true →
      (forwardRequestHeaders httpCrate twiceHeaders [] apiHost).getAll name = []) ∧
    (forwardRequestHeaders httpCrate twiceHeaders [] apiHost).getAll .host =
      [HeaderValue.fromStatic apiHost] :=
  forward_request_lossless (by decide) twiceHeaders

end HttpRs

namespace ProxyRs

/-! ## `proxy.rs` -/

/-- The names that `is_hop_by_hop` matches. -/
def hopByHopNames : List Str :=
  ["connection", "keep-alive", "proxy-authenticate", "proxy-authorization", "te", "trailer",
    "transfer-encoding", "upgrade"].map String.toList

/-- **The classifier of `proxy.rs`** is a list of names in lower case: the comparisons add
nothing. -/
theorem isHopByHop_iff {s : Str} : isHopByHop s = true ↔ toAsciiLowercase s ∈ hopByHopNames := by
  have hconst : ∀ t ∈ ["proxy-authenticate", "proxy-authorization", "te", "trailer",
      "transfer-encoding", "upgrade"].map String.toList, toAsciiLowercase t ∈ hopByHopNames := by
    decide
  unfold isHopByHop
  simp only [Bool.or_eq_true, decide_eq_true_eq, eqIgnoreAsciiCase_iff]
  constructor
  · rintro ((((((h | h) | h) | h) | h) | h) | h)
    · exact h
    all_goals
      rw [h]
      exact hconst _ (by decide)
  · intro h
    exact Or.inl (Or.inl (Or.inl (Or.inl (Or.inl (Or.inl h)))))

/-- The names that one of the files drops and the other keeps. -/
def apartNames : List Str :=
  ["proxy-connection", "proxy-authenticate", "proxy-authorization"].map String.toList

/-- **Where the classifiers agree**, for every spelling of every name. -/
theorem isHopByHop_eq_iff (s : Str) :
    isHopByHop s = HttpRs.isHopByHopHeader s ↔ toAsciiLowercase s ∉ apartNames := by
  rw [Bool.eq_iff_iff, isHopByHop_iff, HttpRs.isHopByHopHeader_iff]
  generalize toAsciiLowercase s = t
  have hproxy : ∀ t ∈ hopByHopNames, t ∈ HttpRs.hopByHopHeaders ∨ t ∈ apartNames := by decide
  have hhttp : ∀ t ∈ HttpRs.hopByHopHeaders, t ∈ hopByHopNames ∨ t ∈ apartNames := by decide
  have hapart : ∀ t ∈ apartNames, ¬ (t ∈ hopByHopNames ↔ t ∈ HttpRs.hopByHopHeaders) := by decide
  constructor
  · intro h ht
    exact hapart t ht h
  · intro ht
    exact ⟨fun h => (hproxy t h).resolve_right ht, fun h => (hhttp t h).resolve_right ht⟩

/-- What the copy of a response keeps. -/
theorem getAll_copyResponse (src : Headers) (name : HeaderName) :
    (copyResponseHeaders [] src).getAll name =
      if isHopByHop name.asStr || name.asStr ∈ connectionHeaderTokens (src.get .connection) then []
      else src.getAll name := by
  have h := Multimap.getAll_copyUnless (fun name : HeaderName => isHopByHop (toAsciiLowercase name.asStr) ||
    toAsciiLowercase name.asStr ∈ connectionHeaderTokens (src.get .connection)) src name
  rw [name.lower] at h
  exact h

/-- **The two response filters agree** on a response without `Connection` exactly where it has
none of the three names; and the classifiers agree on all other names. -/
theorem classifiers_agree_iff {src : Headers} (hconn : src.getAll .connection = []) :
    ((∀ name, (copyResponseHeaders [] src).getAll name =
        (HttpRs.forwardResponseHeaders src []).getAll name) ↔
      ∀ name : HeaderName, name.asStr ∈ apartNames → src.getAll name = []) ∧
    ∀ s, isHopByHop s = HttpRs.isHopByHopHeader s ↔ toAsciiLowercase s ∉ apartNames := by
  have hfirst : src.get .connection = none := by
    rw [Multimap.get, hconn, List.head?_nil]
  have hcopy : ∀ name, (copyResponseHeaders [] src).getAll name =
      if isHopByHop name.asStr then [] else src.getAll name := by
    intro name
    rw [getAll_copyResponse, hfirst]
    simp [connectionHeaderTokens]
  refine ⟨?_, isHopByHop_eq_iff⟩
  constructor
  · intro hall name hname
    have hne : isHopByHop name.asStr ≠ HttpRs.isHopByHopHeader name.asStr := by
      intro heq
      have hnot := (isHopByHop_eq_iff name.asStr).1 heq
      rw [name.lower] at hnot
      exact hnot hname
    have hsame := hall name
    rw [hcopy, HttpRs.getAll_forwardResponse] at hsame
    -- one of the two sides is empty, and the other has all values
    cases hp : isHopByHop name.asStr <;> cases hh : HttpRs.isHopByHopHeader name.asStr
    · exact absurd (hp.trans hh.symm) hne
    · simpa [hp, hh] using hsame
    · simpa [hp, hh] using hsame.symm
    · exact absurd (hp.trans hh.symm) hne
  · intro hnone name
    rw [hcopy, HttpRs.getAll_forwardResponse]
    by_cases hname : name.asStr ∈ apartNames
    · rw [hnone name hname, ite_self, ite_self]
    · rw [(isHopByHop_eq_iff name.asStr).2 (by rwa [name.lower])]

/-- A response with a hop-by-hop header that both files drop. -/
def upgradeHeaders : Headers :=
  [(⟨"content-length".toList, by decide⟩, HeaderValue.fromStatic "42".toList),
    (⟨"upgrade".toList, by decide⟩, HeaderValue.fromStatic "h2c".toList)]

theorem classifiers_agree_iff_upgrade :
    ((∀ name, (copyResponseHeaders [] upgradeHeaders).getAll name =
        (HttpRs.forwardResponseHeaders upgradeHeaders []).getAll name) ↔
      ∀ name : HeaderName, name.asStr ∈ apartNames → upgradeHeaders.getAll name = []) ∧
    ∀ s, isHopByHop s = HttpRs.isHopByHopHeader s ↔ toAsciiLowercase s ∉ apartNames :=
  classifiers_agree_iff (by decide)

def proxyConnection : HeaderName := ⟨"proxy-connection".toList, by decide⟩

/-- `Proxy-Connection` goes through `proxy.rs` and not through `http.rs`. -/
def proxyConnectionHeaders : Headers :=
  [(proxyConnection, HeaderValue.fromStatic "keep-alive".toList)]

theorem proxy_connection_apart : proxyConnectionHeaders.getAll .connection = [] ∧
    (copyResponseHeaders [] proxyConnectionHeaders).getAll proxyConnection =
      [HeaderValue.fromStatic "keep-alive".toList] ∧
    (HttpRs.forwardResponseHeaders proxyConnectionHeaders []).getAll proxyConnection = [] ∧
    ¬ (∀ src : Headers, src.getAll .connection = [] → ∀ name,
      (copyResponseHeaders [] src).getAll name =
        (HttpRs.forwardResponseHeaders src []).getAll name) ∧
    ¬ (∀ s, isHopByHop s = HttpRs.isHopByHopHeader s) := by
  refine ⟨by decide, by decide, by decide, fun hall => ?_, fun hall => ?_⟩
  · exact absurd (hall proxyConnectionHeaders (by decide) proxyConnection) (by decide)
  · exact absurd (hall "Proxy-Authenticate".toList) (by decide)

end ProxyRs

end Retrotls
