import Retrotls.Proof.HopByHop

/-!
# Headers that `Connection` nominates, in `proxy.rs`

* `mem_connectionHeaderTokens`: the tokens of a value are the names that it lists.
* `hopFiltered_iff`: what a copy drops decides whether it is filtered.
* `copy_response_filtered`, `copy_request_filtered`: what a response's copy and a request's
  copy are filtered for: the first `Connection` line, and none.
* `connection_filtered_iff`: **nominated headers are dropped** exactly where the first
  `Connection` line of a response lists all of them, and a request nominates none.
-/

namespace Retrotls.ProxyRs

variable {H : HttpCrate}

/-- The value is text, and one of its elements is the name, in some letter case. -/
def Lists (value : HeaderValue) (name : HeaderName) : Prop :=
  ∃ text, value.toStr = some text ∧
    ∃ token ∈ tokens ',' isWhitespace text, eqIgnoreAsciiCase token name.asStr = true

/-- One of the `Connection` values lists the name. -/
def Nominates (src : Headers) (name : HeaderName) : Prop :=
  ∃ value ∈ src.getAll .connection, Lists value name

/-- **Hop-by-hop and nominated headers are dropped**, and all others keep their values, in
order. The names in `own` are left out. -/
structure HopFiltered (own : List HeaderName) (src dst : Headers) : Prop where
  dropped : ∀ name, name ∉ own → isHopByHop name.asStr = true ∨ Nominates src name →
    dst.getAll name = []
  kept : ∀ name, name ∉ own → isHopByHop name.asStr = false → ¬ Nominates src name →
    dst.getAll name = src.getAll name

/-- The tokens of a value are the names that it lists. -/
theorem mem_connectionHeaderTokens {header : Option HeaderValue} {name : HeaderName} :
    name.asStr ∈ connectionHeaderTokens header ↔ ∃ value, header = some value ∧ Lists value name := by
  cases header with
  | none => simp [connectionHeaderTokens]
  | some value =>
    simp only [Option.some.injEq, exists_eq_left', Lists]
    cases htext : value.toStr with
    | none => simp [connectionHeaderTokens, htext]
    | some text =>
      simp only [connectionHeaderTokens, htext, Option.some.injEq, exists_eq_left', List.mem_filter,
        List.mem_map, tokens, decide_eq_true_eq, eqIgnoreAsciiCase_iff, name.lower]
      constructor
      · rintro ⟨⟨piece, hpiece, hname⟩, -⟩
        -- a name is not empty, so what it is the lower case of is not
        have hne : trim piece ≠ [] := by
          intro hnil
          rw [hnil] at hname
          exact name.ok.1 hname.symm
        exact ⟨trim piece, ⟨⟨piece, hpiece, rfl⟩, hne⟩, hname⟩
      · rintro ⟨token, ⟨⟨piece, hpiece, rfl⟩, -⟩, hname⟩
        exact ⟨⟨piece, hpiece, hname⟩, name.ok.1⟩

/-- **A copy that drops** hop-by-hop headers, and only these and nominated ones, is filtered
exactly where it drops what is nominated. -/
theorem hopFiltered_iff {own : List HeaderName} {src dst : Headers} {drops : HeaderName → Bool}
    (hdst : ∀ name, name ∉ own → dst.getAll name = if drops name then [] else src.getAll name)
    (hhop : ∀ name, isHopByHop name.asStr = true → drops name = true)
    (hsound : ∀ name, drops name = true → isHopByHop name.asStr = true ∨ Nominates src name) :
    HopFiltered own src dst ↔ ∀ name, name ∉ own → src.getAll name ≠ [] →
      isHopByHop name.asStr = false → Nominates src name → drops name = true := by
  constructor
  · intro h name hown hpresent _ hnom
    by_contra hkeeps
    have hgone := h.dropped name hown (Or.inr hnom)
    rw [hdst name hown, if_neg hkeeps] at hgone
    exact hpresent hgone
  · intro h
    refine ⟨?_, ?_⟩
    · intro name hown hdrop
      rw [hdst name hown]
      by_cases hpresent : src.getAll name = []
      · rw [hpresent, ite_self]
      refine if_pos ?_
      cases hclass : isHopByHop name.asStr with
      | true => exact hhop name hclass
      | false =>
        have hnom : Nominates src name :=
          hdrop.resolve_left (by rw [hclass]; exact Bool.false_ne_true)
        exact h name hown hpresent hclass hnom
    · intro name hown hclass hnom
      have hkeeps : drops name ≠ true := by
        intro hdrops
        rcases hsound name hdrops with hhop' | hnom'
        · exact Bool.false_ne_true (hclass.symm.trans hhop')
        · exact hnom hnom'
      rw [hdst name hown, if_neg hkeeps]

/-- **A response** is filtered for its first `Connection` line. -/
theorem copy_response_filtered (src : Headers) :
    HopFiltered [] src (copyResponseHeaders [] src) ↔
      ∀ name, src.getAll name ≠ [] → isHopByHop name.asStr = false → Nominates src name →
        ∃ value, src.get .connection = some value ∧ Lists value name := by
  rw [hopFiltered_iff fun name _ => getAll_copyResponse src name]
  · constructor
    · intro h name hpresent hclass hnom
      have hdrops := h name List.not_mem_nil hpresent hclass hnom
      rw [hclass, Bool.false_or, decide_eq_true_eq] at hdrops
      exact mem_connectionHeaderTokens.1 hdrops
    · intro h name _ hpresent hclass hnom
      rw [hclass, Bool.false_or, decide_eq_true_eq]
      exact mem_connectionHeaderTokens.2 (h name hpresent hclass hnom)
  · intro name hhop
    rw [hhop, Bool.true_or]
  · intro name hdrops
    rw [Bool.or_eq_true, decide_eq_true_eq, mem_connectionHeaderTokens] at hdrops
    refine hdrops.imp_right ?_
    rintro ⟨value, hfirst, hlists⟩
    exact ⟨value, List.mem_of_mem_head? hfirst, hlists⟩

/-- What the copy of a request keeps: it never fails. -/
theorem copyRequest_ok (src : Headers) (upstream : Str) :
    ∃ dst, copyRequestHeaders H [] src upstream = .ok dst ∧ ∀ name : HeaderName, name ≠ .host →
      dst.getAll name = if isHopByHop name.asStr then [] else src.getAll name := by
  have hcopy := Multimap.getAll_copyUnless (fun name : HeaderName => isHopByHop name.asStr) src
  unfold copyRequestHeaders
  simp only
  split
  · refine ⟨_, rfl, fun name hn => ?_⟩
    rw [Multimap.getAll_insert_ne _ hn, hcopy]
  · exact ⟨_, rfl, fun name _ => hcopy name⟩

/-- **A request** is filtered where `Connection` nominates nothing. -/
theorem copy_request_filtered (src : Headers) (upstream : Str) :
    ∃ dst, copyRequestHeaders H [] src upstream = .ok dst ∧
      (HopFiltered [.host] src dst ↔ ∀ name : HeaderName, name ≠ .host → src.getAll name ≠ [] →
        isHopByHop name.asStr = false → ¬ Nominates src name) := by
  obtain ⟨dst, hok, hdst⟩ := copyRequest_ok (H := H) src upstream
  refine ⟨dst, hok, ?_⟩
  have hiff := @hopFiltered_iff [.host] src dst (fun name => isHopByHop name.asStr)
    (fun name hown => hdst name fun hn => hown (List.mem_singleton.2 hn)) (fun _ hhop => hhop)
    fun _ hdrops => Or.inl hdrops
  rw [hiff]
  simp only [List.mem_singleton]
  constructor
  · intro h name hn hpresent hclass hnom
    exact Bool.false_ne_true (hclass.symm.trans (h name hn hpresent hclass hnom))
  · intro h name hn hpresent hclass hnom
    exact absurd hnom (h name hn hpresent hclass)

/-- **Exactly where nominated headers are dropped**: in a response, where the first `Connection`
line lists every header that any line nominates; in a request, where no header is nominated. -/
theorem connection_filtered_iff (H : HttpCrate) (src : Headers) (upstream : Str) :
    (HopFiltered [] src (copyResponseHeaders [] src) ↔
      ∀ name, src.getAll name ≠ [] → isHopByHop name.asStr = false → Nominates src name →
        ∃ value, src.get .connection = some value ∧ Lists value name) ∧
    ∃ dst, copyRequestHeaders H [] src upstream = .ok dst ∧
      (HopFiltered [.host] src dst ↔ ∀ name : HeaderName, name ≠ .host → src.getAll name ≠ [] →
        isHopByHop name.asStr = false → ¬ Nominates src name) :=
  ⟨copy_response_filtered src, copy_request_filtered src upstream⟩

def xTrace : HeaderName := ⟨"x-trace".toList, by decide⟩

/-- `Connection: close` and `Connection: X-Trace`. -/
def twoConnectionLines : Headers :=
  [(.connection, HeaderValue.fromStatic "close".toList),
    (.connection, HeaderValue.fromStatic "X-Trace".toList),
    (xTrace, HeaderValue.fromStatic "1".toList)]

/-- The nominated header goes through in both directions. -/
theorem nominated_goes_through :
    ¬ HopFiltered [] twoConnectionLines (copyResponseHeaders [] twoConnectionLines) ∧
    ∀ dst, copyRequestHeaders httpCrate [] twoConnectionLines "https://api.com".toList = .ok dst →
      ¬ HopFiltered [.host] twoConnectionLines dst := by
  have hlists : Lists (HeaderValue.fromStatic "X-Trace".toList) xTrace :=
    ⟨"X-Trace".toList, by decide, "X-Trace".toList, by decide, by decide⟩
  have hnom : Nominates twoConnectionLines xTrace := ⟨_, by decide, hlists⟩
  constructor
  · intro h
    exact absurd (h.dropped xTrace (by decide) (Or.inr hnom)) (by decide)
  · intro dst hok h
    have hgone := h.dropped xTrace (by decide) (Or.inr hnom)
    obtain ⟨dst', hok', hdst⟩ := copyRequest_ok (H := httpCrate) twoConnectionLines
      "https://api.com".toList
    have hsame : dst' = dst := Except.ok.inj (hok'.symm.trans hok)
    rw [← hsame, hdst xTrace (by decide)] at hgone
    exact absurd hgone (by decide)

end Retrotls.ProxyRs
