import Retrotls.Proof.Uri
import Retrotls.Proof.Upstream
import Retrotls.Proof.Crates

/-!
# The target URI of a forwarded request

`targetText r` is the path and query that `build_target_uri` gives the builder for a
request URI `r`.

* `buildTargetUri_eq`: the builder never fails, so the target is `https://`, the
  upstream's authority and `targetText r`.
* `outbound_ok`: `Proxy::forward` gets as far as its request for every upstream.
* `path_kept_iff`: the target keeps the configured base path exactly where that path
  holds slashes only.
* `confined_iff`: the target's text is read back as the target exactly when the request's
  path starts with a slash and the text is not too long for the http crate.
-/

namespace Retrotls

/-- The path and query that `build_target_uri` passes on. -/
def targetText (r : Uri) : Str := (r.pathAndQuery.map PathAndQuery.asStr).getD ['/']

variable {H : HttpCrate} {raw : Str} {up : Upstream} {r : Uri}

theorem targetText_of_some {p : PathAndQuery} (h : r.pathAndQuery = some p) :
    targetText r = p.asStr := by rw [targetText, h]; rfl

/-- The text is accepted as a path and query: it is one that a `Uri` holds, or `/`. -/
theorem parse_targetText (hH : H.Documented) (hr : H.Holds r) :
    H.parsePathAndQuery (targetText r) = some ⟨targetText r⟩ := by
  have hheld := hr.path hH
  by_cases hp : r.scheme.isSome || r.authority.isNone
  · have hpq : r.pathAndQuery = some r.stored := by rw [Uri.pathAndQuery, if_pos hp]
    rw [targetText_of_some hpq, PathAndQuery.asStr]
    split
    · exact parse_slash hH
    · rename_i hne
      exact hheld.resolve_left hne
  · have hpq : r.pathAndQuery = none := by rw [Uri.pathAndQuery, if_neg hp]
    rw [targetText, hpq]
    exact parse_slash hH

/-- The target that the builder makes. -/
theorem targetBuilder_build (hH : H.Documented) (hup : parseUpstream H raw = .ok up)
    (hr : H.Holds r) : (targetBuilder H up r.pathAndQuery).build =
      some ⟨some https, some ⟨up.authority⟩, ⟨targetText r⟩⟩ := by
  have ha := parseUpstream_authority hH hup
  have hp := parse_targetText hH hr
  unfold targetText at hp ⊢
  simp only [targetBuilder, UriBuilder.new, UriBuilder.scheme, UriBuilder.authority,
    UriBuilder.pathAndQuery, UriBuilder.build, hH.scheme_https, ha, hp, Option.bind_some,
    Option.map_some, Uri.fromParts, Option.getD_some]

/-- **The target URI.** -/
theorem buildTargetUri_eq (hH : H.Documented) (hup : parseUpstream H raw = .ok up)
    (hr : H.Holds r) : buildTargetUri H up r.pathAndQuery =
      ⟨some https, some ⟨up.authority⟩, ⟨targetText r⟩⟩ := by
  rw [buildTargetUri, targetBuilder_build hH hup hr, Option.getD_some]

/-- `Proxy::forward` gets as far as its request: the authority is a header value, and the
only one of `Host`. -/
theorem outbound_ok (hH : H.Documented) (hup : parseUpstream H raw = .ok up) (req : Request)
    (body : Bytes) : ∃ out, outbound H req body up = .ok out ∧
      out.uri = buildTargetUri H up req.uri.pathAndQuery ∧
      out.headers.getAll "host".toList = [up.authority.map fun c => UInt8.ofNat c.toNat] := by
  have hg := hH.header_graphic up.authority fun c hc => (authority_graphic hH hup hc).1
  unfold outbound
  rw [hg]
  exact ⟨_, rfl, rfl, Multimap.getAll_insert _ _ _⟩

/-! ## The base path -/

/-- **The base path is kept**: the request goes to the upstream's authority, with the
client's query, to the base path without its trailing slashes followed by the client's
path. -/
structure PathKept (up : Upstream) (r target : Uri) : Prop where
  authority : target.authority = some ⟨up.authority⟩
  query : target.query = r.query
  path : target.path = trimEndMatches up.base.path '/' ++ r.path

/-- For a path that starts with a slash, the target has the client's path and query. -/
theorem target_path_query (hH : H.Documented) (hup : parseUpstream H raw = .ok up) (hr : H.Holds r)
    (hp : r.path.head? = some '/') : (buildTargetUri H up r.pathAndQuery).path = r.path ∧
      (buildTargetUri H up r.pathAndQuery).query = r.query := by
  rw [buildTargetUri_eq hH hup hr, Uri.path_of_scheme]
  -- a path and query that is passed on keeps both
  have hkeep : ∀ p, r.pathAndQuery = some p → r.stored = p → r.path = p.path →
      (⟨targetText r⟩ : PathAndQuery).path = r.path ∧
        (⟨some https, some ⟨up.authority⟩, ⟨targetText r⟩⟩ : Uri).query = r.query := by
    intro p hpq hstored hpath
    rw [targetText_of_some hpq, PathAndQuery.path_asStr, hpath, Uri.query, Uri.query, hstored]
    exact ⟨rfl, p.query_asStr⟩
  cases hr.form hH with
  | path p =>
    have hd : p.data ≠ [] := by
      intro hd
      rw [Uri.path, if_neg (by simpa using hd)] at hp
      cases hp
    exact hkeep p rfl rfl (if_pos (Or.inl hd))
  | authority a =>
    rw [Uri.path, if_neg (by simp)] at hp
    cases hp
  | absolute s a p => exact hkeep p rfl rfl Uri.path_of_scheme

/-- **Exactly the base paths of slashes only are kept.** -/
theorem path_kept_iff (hH : H.Documented) (hup : parseUpstream H raw = .ok up) (req : Request)
    (body : Bytes) (hr : H.Holds req.uri) (hp : req.uri.path.head? = some '/') :
    ∃ out, outbound H req body up = .ok out ∧
      (PathKept up req.uri out.uri ↔ ∀ c ∈ up.base.path, c = '/') := by
  obtain ⟨out, hout, hu, -⟩ := outbound_ok hH hup req body
  obtain ⟨hpath, hquery⟩ := target_path_query hH hup hr hp
  refine ⟨out, hout, ?_⟩
  rw [hu, ← trimEndMatches_eq_nil]
  constructor
  · -- the target has the client's path alone
    rintro ⟨-, -, h⟩
    rw [hpath] at h
    exact List.self_eq_append_left.1 h
  · intro h
    refine ⟨by rw [buildTargetUri_eq hH hup hr], hquery, ?_⟩
    rw [hpath, h, List.nil_append]

/-- A client's `GET`. -/
def getRequest (uri : Uri) : Request where
  method := "GET".toList
  uri := uri
  version := .http11
  headers := []
  body := some []

def apiBase : Str := "https://api.com/base".toList

/-- What `parse_upstream` makes of `https://api.com/base`. -/
def apiUpstream : Upstream where
  base := ⟨some https, some ⟨"api.com".toList⟩, ⟨"/base".toList⟩⟩
  authority := "api.com".toList
  host := "api.com".toList
  port := 443

theorem parse_apiBase : parseUpstream httpCrate apiBase = .ok apiUpstream := by decide +kernel

def v1Test : Uri := ⟨none, none, ⟨"/v1/test".toList⟩⟩

theorem holds_v1Test : httpCrate.Holds v1Test := Or.inl ⟨"/v1/test".toList, by decide +kernel⟩

theorem path_kept_iff_api : ∃ out, outbound httpCrate (getRequest v1Test) [] apiUpstream = .ok out ∧
    (PathKept apiUpstream v1Test out.uri ↔ ∀ c ∈ apiUpstream.base.path, c = '/') :=
  path_kept_iff httpCrate_documented parse_apiBase (getRequest v1Test) [] holds_v1Test
    (by decide +kernel)

/-- With the base path `/base`, `/v1/test` is not sent to `/base/v1/test`. -/
theorem base_path_lost : parseUpstream httpCrate apiBase = .ok apiUpstream ∧
    httpCrate.Holds v1Test ∧ v1Test.path.head? = some '/' ∧
    ∃ out, outbound httpCrate (getRequest v1Test) [] apiUpstream = .ok out ∧
      out.uri.path = "/v1/test".toList ∧ ¬ PathKept apiUpstream v1Test out.uri := by
  refine ⟨parse_apiBase, holds_v1Test, by decide +kernel, _, rfl, by decide +kernel, fun h => ?_⟩
  exact absurd h.path (by decide +kernel)

/-! ## Confinement -/

/-- **The target is confined to the upstream**: the builder made it, it names the
upstream's authority, and its text is read back with the same parts. -/
structure Confined (H : HttpCrate) (up : Upstream) (r : Uri) : Prop where
  built : (targetBuilder H up r.pathAndQuery).build = some (buildTargetUri H up r.pathAndQuery)
  scheme : (buildTargetUri H up r.pathAndQuery).scheme = some https
  authority : (buildTargetUri H up r.pathAndQuery).authority = some ⟨up.authority⟩
  readBack : ∃ t, H.parseUri (buildTargetUri H up r.pathAndQuery).toText = some t ∧
    t.scheme = some https ∧ t.authority = some ⟨up.authority⟩ ∧
    t.path = (buildTargetUri H up r.pathAndQuery).path ∧
    t.query = (buildTargetUri H up r.pathAndQuery).query

/-- The text of the request target: `https://`, the authority, the path and the query. -/
def requestTarget (up : Upstream) (r : Uri) : Str :=
  httpsPrefix ++ (up.authority ++ (⟨targetText r⟩ : PathAndQuery).toText)

theorem buildTargetUri_toText (hH : H.Documented) (hup : parseUpstream H raw = .ok up)
    (hr : H.Holds r) : (buildTargetUri H up r.pathAndQuery).toText = requestTarget up r := by
  rw [buildTargetUri_eq hH hup hr, toText_https, requestTarget]

/-- The path of the request, if it has one, starts with a slash. -/
def SlashPath (r : Uri) : Prop := ∀ p, r.pathAndQuery = some p → p.path.head? = some '/'

theorem target_head (r : Uri) :
    (⟨targetText r⟩ : PathAndQuery).path.head? = some '/' ↔ SlashPath r := by
  unfold SlashPath
  cases hp : r.pathAndQuery with
  | none =>
    rw [targetText, hp]
    exact ⟨fun _ p h => (by cases h), fun _ => rfl⟩
  | some p =>
    rw [targetText_of_some hp, PathAndQuery.path_asStr]
    exact ⟨fun h q hq => Option.some.inj hq ▸ h, fun h => h p rfl⟩

/-- **The target is read back** when its path starts with a slash and it is not too long. -/
theorem target_readBack (hH : H.Documented) (hup : parseUpstream H raw = .ok up) (hr : H.Holds r)
    (hs : SlashPath r) (hlen : utf8Len (requestTarget up r) ≤ H.maxLen) :
    H.parseUri (requestTarget up r) =
      some ⟨some https, some ⟨up.authority⟩, ⟨(⟨targetText r⟩ : PathAndQuery).toText⟩⟩ := by
  have hhead : startsWith (⟨targetText r⟩ : PathAndQuery).path '/' = true := by
    rw [startsWith, (target_head r).2 hs]
    rfl
  have hread := parse_toText_https hH (a := ⟨up.authority⟩) (parseUpstream_authority hH hup)
    (p := ⟨targetText r⟩) (Or.inr (parse_targetText hH hr)) hhead
  unfold requestTarget at hlen ⊢
  rw [hread, if_pos hlen]

/-- **A path without a slash is read as a part of the authority.** -/
theorem slashPath_of_authority (hH : H.Documented) (hup : parseUpstream H raw = .ok up)
    (hr : H.Holds r) {t : Uri} (h : H.parseUri (requestTarget up r) = some t)
    (hauth : t.authority = some ⟨up.authority⟩) : SlashPath r := by
  rw [← target_head]
  have hparse : H.Stored ⟨targetText r⟩ := Or.inr (parse_targetText hH hr)
  rw [parseUri_https_authority hH h, PathAndQuery.toText,
    List.takeWhile_append_of_pos fun c hc => (authority_graphic hH hup hc).2] at hauth
  cases hpath : (⟨targetText r⟩ : PathAndQuery).path with
  | nil => exact absurd hpath (PathAndQuery.path_ne_nil _)
  | cons c cs =>
    have hc : c ∈ (⟨targetText r⟩ : PathAndQuery).path := by
      rw [hpath]
      exact List.mem_cons_self
    have hmark : c ≠ '?' := PathAndQuery.no_mark_of_mem_path hc
    have hhash : c ≠ '#' := no_hash_of_mem_path hH hparse hc
    by_contra hslash
    have hin : inAuthority c = true := by
      rw [List.head?_cons, Option.some.injEq] at hslash
      simp [inAuthority, hslash, hmark, hhash]
    rw [hpath, List.cons_append, List.takeWhile_cons_of_pos hin] at hauth
    simp at hauth

/-- **Exactly when the target is confined.** -/
theorem confined_iff (hH : H.Documented) (hup : parseUpstream H raw = .ok up) (hr : H.Holds r) :
    Confined H up r ↔ SlashPath r ∧ utf8Len (requestTarget up r) ≤ H.maxLen := by
  have htext := buildTargetUri_toText hH hup hr
  have heq := buildTargetUri_eq hH hup hr
  constructor
  · rintro ⟨-, -, -, t, ht, -, hauth, -⟩
    rw [htext] at ht
    exact ⟨slashPath_of_authority hH hup hr ht hauth, parseUri_https_len hH ht⟩
  · rintro ⟨hs, hlen⟩
    obtain ⟨h1, h2⟩ := PathAndQuery.split_toText ⟨targetText r⟩
    refine ⟨by rw [targetBuilder_build hH hup hr, heq], by rw [heq], by rw [heq], ?_⟩
    rw [htext, target_readBack hH hup hr hs hlen, heq]
    refine ⟨_, rfl, rfl, rfl, ?_, ?_⟩
    · rw [Uri.path_of_scheme, Uri.path_of_scheme, h1]
    · exact h2

/-- The request target of `OPTIONS *`. -/
def asterisk : Uri := ⟨none, none, ⟨['*']⟩⟩

theorem holds_asterisk : httpCrate.Holds asterisk := Or.inl ⟨['*'], by decide +kernel⟩

theorem confined_iff_asterisk : Confined httpCrate apiUpstream asterisk ↔
    SlashPath asterisk ∧ utf8Len (requestTarget apiUpstream asterisk) ≤ httpCrate.maxLen :=
  confined_iff httpCrate_documented parse_apiBase holds_asterisk

/-- `https://api.com*`, as it is read. -/
def escaped : Uri := ⟨some https, some ⟨"api.com*".toList⟩, ⟨[]⟩⟩

/-- `OPTIONS *` is sent to the authority `api.com*`. -/
theorem asterisk_escapes : parseUpstream httpCrate apiBase = .ok apiUpstream ∧
    httpCrate.Holds asterisk ∧
    httpCrate.parseUri (buildTargetUri httpCrate apiUpstream asterisk.pathAndQuery).toText =
      some escaped ∧ ¬ Confined httpCrate apiUpstream asterisk := by
  have hread : httpCrate.parseUri
      (buildTargetUri httpCrate apiUpstream asterisk.pathAndQuery).toText = some escaped := by
    decide +kernel
  refine ⟨parse_apiBase, holds_asterisk, hread, ?_⟩
  rintro ⟨-, -, -, t, ht, -, hauth, -⟩
  rw [hread, Option.some.injEq] at ht
  rw [← ht] at hauth
  exact absurd hauth (by decide +kernel)

end Retrotls
