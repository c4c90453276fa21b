import Retrotls.Proof.Listeners
import Retrotls.Proof.Join
import Retrotls.Proof.Crates

/-!
# The URL of an upstream request

What `build_upstream_url` of `http.rs` returns for a base that `validate_listeners` of
`config.rs` has accepted.

* `accepted_upstream`: such a base is an `https://` text.
* `splitPathAndQuery_eq`: the request text is cut at its first question mark.
* `buildUpstreamUrl_eq`: the URL has the base's authority, and its path and query are the
  joined text.
* `upstream_url_stays`: **it stays on the configured upstream**, and its text is read back
  unless it is too long for the http crate.

The joined text is one that the crate can index: no longer than `maxLen` bytes.
-/

namespace Retrotls

open HttpRs (splitPathAndQuery buildUpstreamUrl)

variable {H : HttpCrate} {uriError : Str → Str} {s : Str}

/-- **An accepted base** is an `https://` text that is read. -/
theorem accepted_upstream (hH : H.Documented) {ls : List ConfigRs.ListenerConfig}
    (hls : ConfigRs.validateListeners H uriError ls = .ok ()) {l : ConfigRs.ListenerConfig}
    (hl : l ∈ ls) : ∃ rest base, l.upstream = httpsPrefix ++ rest ∧ H.parseUri l.upstream = some base := by
  obtain ⟨⟨rest, hrest⟩, hread⟩ := ((ConfigRs.validateListeners_ok hH).1 hls).2 l hl
  obtain ⟨base, hbase⟩ := Option.isSome_iff_exists.1 hread
  exact ⟨rest, base, hrest.symm, hbase⟩

/-! ## The request text -/

/-- The path part of a request text, before its first question mark. -/
def pathPart (s : Str) : Str := s.takeWhile (· != '?')

/-- The query part of a request text, after it. -/
def queryPart (s : Str) : Option Str := (splitOnce s '?').map Prod.snd

theorem splitPathAndQuery_eq (s : Str) : splitPathAndQuery s = (pathPart s, queryPart s) := by
  unfold splitPathAndQuery pathPart queryPart splitOnce
  cases s with
  | nil => rfl
  | cons c t =>
    rw [if_neg (by simp)]
    by_cases hc : c = '?'
    · rw [hc, stripStart_cons]
      rfl
    · have hstrip : stripStart (c :: t) '?' = none := if_neg hc
      have htake := List.takeWhile_cons_of_pos (p := (· != '?')) (l := t) (a := c) (by simpa using hc)
      have hdrop := List.dropWhile_cons_of_pos (p := (· != '?')) (l := t) (a := c) (by simpa using hc)
      have hcut : t.takeWhile (· != '?') ++ t.dropWhile (· != '?') = t :=
        List.takeWhile_append_dropWhile
      simp only [hstrip, htake, hdrop]
      cases hd : t.dropWhile (· != '?') with
      | nil =>
        rw [hd, List.append_nil] at hcut
        rw [hcut]
        rfl
      | cons x q => rfl

/-- The request text is its two parts. -/
theorem split_join (s : Str) : pathPart s ++ queryText (queryPart s) = s := by
  have hq : queryPart s = (⟨s⟩ : PathAndQuery).query := by
    unfold queryPart splitOnce PathAndQuery.query
    cases s.dropWhile (· != '?') <;> rfl
  rw [hq]
  exact PathAndQuery.data_split ⟨s⟩

/-! ## The joined path -/

variable {b p : Str}

/-- A join keeps the base without its trailing slashes. -/
theorem trim_prefix_joinPaths (hb : b ≠ []) :
    List.IsPrefix (trimEndMatches b '/') (HttpRs.joinPaths b p) := by
  have htrim := trimEndMatches_isPrefix b '/'
  rw [joinPaths_eq hb]
  unfold ConfigRs.joinPaths
  rw [if_neg hb]
  split
  · exact htrim
  · split
    · exact List.prefix_append _ _
    · exact htrim.trans (List.prefix_append _ _)
    · exact htrim.trans (List.prefix_append _ _)

/-- A join brings no character but a slash. -/
theorem mem_joinPaths (hb : b ≠ []) {c : Char} (hc : c ∈ HttpRs.joinPaths b p) :
    c = '/' ∨ c ∈ b ∨ c ∈ p := by
  rw [joinPaths_eq hb] at hc
  unfold ConfigRs.joinPaths at hc
  rw [if_neg hb] at hc
  split at hc
  · exact Or.inr (Or.inl hc)
  · split at hc
    · rcases List.mem_append.1 hc with h | h
      · exact Or.inr (Or.inl ((trimEndMatches_isPrefix b '/').subset h))
      · exact Or.inr (Or.inr h)
    · rcases List.mem_append.1 hc with h | h
      · exact Or.inr (Or.inl h)
      · rcases List.mem_cons.1 h with h | h
        · exact Or.inl h
        · exact Or.inr (Or.inr h)
    · rcases List.mem_append.1 hc with h | h
      · exact Or.inr (Or.inl h)
      · exact Or.inr (Or.inr h)

/-- A base that starts with a slash is joined to a path that does. -/
theorem startsWith_joinPaths (hb : startsWith b '/' = true) :
    startsWith (HttpRs.joinPaths b p) '/' = true := by
  obtain ⟨t, rfl⟩ := startsWith_iff.1 hb
  rw [joinPaths_eq (by simp)]
  unfold ConfigRs.joinPaths
  rw [if_neg (by simp)]
  split
  · exact hb
  · split
    · rename_i _ hp
      -- the trimmed base may be empty: then the path brings the slash
      have htrim := trimEndMatches_isPrefix ('/' :: t) '/'
      cases hcase : trimEndMatches ('/' :: t) '/' with
      | nil => exact hp
      | cons c r =>
        rw [hcase] at htrim
        rw [(List.cons_prefix_cons.1 htrim).1]
        rfl
    · rfl
    · rfl

/-! ## The URL -/

/-- The text that `build_upstream_url` gives the builder. -/
def joinedText (base : Uri) (s : Str) : Str :=
  HttpRs.joinPaths base.path (pathPart s) ++ queryText (queryPart s)

/-- **What `build_upstream_url` returns** for an `https` base. -/
theorem buildUpstreamUrl_eq (hH : H.Documented) {rest : Str} {base : Uri}
    (hbase : H.parseUri (httpsPrefix ++ rest) = some base) :
    buildUpstreamUrl H (httpsPrefix ++ rest) s =
      (H.parsePathAndQuery (joinedText base s)).map fun p => ⟨some https, base.authority, p⟩ := by
  have hholds : H.Holds base := Or.inl ⟨_, hbase⟩
  obtain ⟨a, p, -, -, rfl⟩ := parseUri_https_parts hH hbase
  have ha := hholds.authority hH (a := a) rfl
  unfold buildUpstreamUrl joinedText
  simp only [hbase, splitPathAndQuery_eq, UriBuilder.new, UriBuilder.scheme,
    UriBuilder.authority, UriBuilder.pathAndQuery, UriBuilder.build, hH.scheme_https, ha,
    Option.bind_some, Option.map_some]
  cases queryPart s with
  | none =>
    simp only [queryText, List.append_nil]
    cases H.parsePathAndQuery _ <;> rfl
  | some query =>
    simp only [queryText]
    cases H.parsePathAndQuery _ <;> rfl

/-- The joined text is cut where it was joined. -/
theorem joinedText_split {rest : Str} {base : Uri}
    (hH : H.Documented) (hbase : H.parseUri (httpsPrefix ++ rest) = some base) :
    (⟨joinedText base s⟩ : PathAndQuery).path = HttpRs.joinPaths base.path (pathPart s) ∧
      (⟨joinedText base s⟩ : PathAndQuery).query = queryPart s := by
  have hslash := parseUri_https_path hH hbase
  have hne := ne_nil_of_startsWith hslash
  obtain ⟨a, p, -, -, rfl⟩ := parseUri_https_parts hH hbase
  refine PathAndQuery.split_text ?_ fun c hc => ?_
  · exact ne_nil_of_startsWith (startsWith_joinPaths hslash)
  · rcases mem_joinPaths hne hc with rfl | h | h
    · decide
    · rw [Uri.path_of_scheme] at h
      exact PathAndQuery.no_mark_of_mem_path h
    · simpa using List.mem_takeWhile_imp h

/-- There is no fragment to lose. -/
theorem joinedText_fragment {rest : Str} {base : Uri} (hH : H.Documented)
    (hbase : H.parseUri (httpsPrefix ++ rest) = some base) (hs : '#' ∉ s) :
    withoutFragment (joinedText base s) = joinedText base s := by
  have hslash := parseUri_https_path hH hbase
  have hholds : H.Holds base := Or.inl ⟨_, hbase⟩
  have hstored := hholds.path hH
  have hne := ne_nil_of_startsWith hslash
  obtain ⟨a, p, -, -, rfl⟩ := parseUri_https_parts hH hbase
  refine takeWhile_of_not_mem fun hc => ?_
  rcases List.mem_append.1 hc with h | h
  · rcases mem_joinPaths hne h with h | h | h
    · exact absurd h (by decide)
    · rw [Uri.path_of_scheme] at h
      exact no_hash_of_mem_path hH hstored h rfl
    · exact hs ((List.takeWhile_prefix _).subset h)
  · refine hs ?_
    rw [← split_join s]
    exact List.mem_append_right _ h

/-- **The URL**, where there is no `#` in the request text. -/
theorem buildUpstreamUrl_some {rest : Str} {base u : Uri} (hH : H.Documented)
    (hbase : H.parseUri (httpsPrefix ++ rest) = some base) (hs : '#' ∉ s)
    (hu : buildUpstreamUrl H (httpsPrefix ++ rest) s = some u) :
    H.parsePathAndQuery (joinedText base s) = some ⟨joinedText base s⟩ ∧
      u = ⟨some https, base.authority, ⟨joinedText base s⟩⟩ := by
  rw [buildUpstreamUrl_eq hH hbase] at hu
  obtain ⟨p, hp, rfl⟩ := Option.map_eq_some_iff.1 hu
  obtain ⟨d⟩ := p
  have hdata : d = withoutFragment (joinedText base s) := (hH.path_read _ _ hp).2.1
  rw [joinedText_fragment hH hbase hs] at hdata
  rw [hdata] at hp ⊢
  exact ⟨hp, rfl⟩

/-- **A URL stays on its base**, for the request text `s`. -/
structure OnUpstream (H : HttpCrate) (base : Uri) (s : Str) (u : Uri) : Prop where
  scheme : u.scheme = base.scheme
  authority : u.authority = base.authority
  query : u.query = (splitOnce s '?').map Prod.snd
  path_slash : startsWith u.path '/' = true
  path_base : List.IsPrefix (trimEndMatches base.path '/') u.path
  /-- The printed text goes on with the path after the base's scheme and authority. -/
  printed : ∃ a rest, base.authority = some a ∧
    u.toText = httpsPrefix ++ (a.text ++ '/' :: rest)
  readBack : H.parseUri u.toText = if utf8Len u.toText ≤ H.maxLen then some u else none

theorem onUpstream {rest : Str} {base u : Uri} (hH : H.Documented)
    (hbase : H.parseUri (httpsPrefix ++ rest) = some base) (hs : '#' ∉ s)
    (hu : buildUpstreamUrl H (httpsPrefix ++ rest) s = some u) : OnUpstream H base s u := by
  have hslash := parseUri_https_path hH hbase
  have hholds : H.Holds base := Or.inl ⟨_, hbase⟩
  obtain ⟨hpath, hquery⟩ := joinedText_split (s := s) hH hbase
  obtain ⟨hparse, rfl⟩ := buildUpstreamUrl_some hH hbase hs hu
  have hjoined := startsWith_joinPaths (p := pathPart s) hslash
  have htrim := trim_prefix_joinPaths (p := pathPart s) (ne_nil_of_startsWith hslash)
  obtain ⟨a, p, -, -, rfl⟩ := parseUri_https_parts hH hbase
  have ha := hholds.authority hH (a := a) rfl
  have htext : (⟨joinedText ⟨some https, some a, p⟩ s⟩ : PathAndQuery).toText =
      joinedText ⟨some https, some a, p⟩ s := by
    rw [PathAndQuery.toText, hpath, hquery, joinedText]
  rw [← hpath] at hjoined htrim
  have hread := parse_toText_https hH ha (p := ⟨joinedText _ s⟩) (Or.inr hparse) hjoined
  rw [htext] at hread
  refine ⟨rfl, rfl, hquery, ?_, ?_, ?_, ?_⟩
  · rw [Uri.path_of_scheme]
    exact hjoined
  · rw [Uri.path_of_scheme (p := ⟨joinedText _ s⟩)]
    exact htrim
  · obtain ⟨t, ht⟩ := startsWith_iff.1 hjoined
    refine ⟨a, t ++ queryText (queryPart s), rfl, ?_⟩
    rw [toText_https, PathAndQuery.toText, ht, hquery, List.cons_append]
  · rw [toText_https, htext]
    exact hread

/-- **`build_upstream_url` stays on the configured upstream**: on its scheme and authority
whatever the text, and in all other parts where the joined text is not too long. -/
theorem upstream_url_stays (hH : H.Documented) {ls : List ConfigRs.ListenerConfig}
    (hls : ConfigRs.validateListeners H uriError ls = .ok ()) {l : ConfigRs.ListenerConfig}
    (hl : l ∈ ls) (hs : '#' ∉ s) {u : Uri} (hu : buildUpstreamUrl H l.upstream s = some u) :
    ∃ base, H.parseUri l.upstream = some base ∧
      u.scheme = base.scheme ∧ u.authority = base.authority ∧
        (utf8Len (joinedText base s) ≤ H.maxLen → OnUpstream H base s u) := by
  obtain ⟨rest, base, hrest, hbase⟩ := accepted_upstream hH hls hl
  have hread := hrest ▸ hbase
  have hon := onUpstream hH hread hs (hrest ▸ hu)
  exact ⟨base, hbase, hon.scheme, hon.authority, fun _ => hon⟩

/-- A listener of `config.rs`. -/
def listenerRs (upstream : Str) : ConfigRs.ListenerConfig where
  bind := .v4 0x7f000001#32 8080
  upstream := upstream

/-- What `https://example.com/api/` is read as. -/
def apiSlash : Uri := ⟨some https, some ⟨"example.com".toList⟩, ⟨"/api/".toList⟩⟩

/-- `https://example.com/api/v1/users?id=1`. -/
def apiUsers : Uri := ⟨some https, some ⟨"example.com".toList⟩, ⟨"/api/v1/users?id=1".toList⟩⟩

theorem upstream_url_stays_users :
    OnUpstream httpCrate apiSlash "/v1/users?id=1".toList apiUsers := by
  have hls : ConfigRs.validateListeners httpCrate (fun _ => [])
      [listenerRs "https://example.com/api/".toList] = .ok () := by decide +kernel
  have hread : httpCrate.parseUri "https://example.com/api/".toList = some apiSlash := by
    decide +kernel
  have hbuild : buildUpstreamUrl httpCrate "https://example.com/api/".toList
      "/v1/users?id=1".toList = some apiUsers := by decide +kernel
  obtain ⟨base, hbase, -, -, hon⟩ := upstream_url_stays httpCrate_documented hls
    List.mem_cons_self (by decide) hbuild
  obtain rfl : apiSlash = base := Option.some.inj (hread.symm.trans hbase)
  exact hon (by decide +kernel)

/-! ## Long texts -/

/-- A path of `n + 1` characters. -/
def longPath (n : ℕ) : Str := '/' :: List.replicate n 'a'

theorem mem_longPath {n : ℕ} {c : Char} (h : c ∈ longPath n) : c = '/' ∨ c = 'a' := by
  rcases List.mem_cons.1 h with h | h
  · exact Or.inl h
  · exact Or.inr (List.eq_of_mem_replicate h)

theorem takeWhile_longPath {f : Char → Bool} (n : ℕ) (hs : f '/' = true) (ha : f 'a' = true) :
    (longPath n).takeWhile f = longPath n := by
  refine List.takeWhile_eq_self_iff.2 fun c hc => ?_
  rcases mem_longPath hc with rfl | rfl
  · exact hs
  · exact ha

theorem split_longPath (n : ℕ) : pathPart (longPath n) = longPath n ∧ queryPart (longPath n) = none := by
  have hpath : pathPart (longPath n) = longPath n := takeWhile_longPath n (by decide) (by decide)
  refine ⟨hpath, ?_⟩
  have hsplit := split_join (longPath n)
  rw [hpath] at hsplit
  cases hq : queryPart (longPath n) with
  | none => rfl
  | some q =>
    rw [hq, queryText, List.append_right_eq_self] at hsplit
    cases hsplit

theorem utf8Len_longPath (n : ℕ) : utf8Len (longPath n) = n + 1 := by
  have hsize : ∀ c ∈ longPath n, c.utf8Size = 1 := by
    intro c hc
    rcases mem_longPath hc with rfl | rfl <;> decide
  rw [utf8Len_of_ascii hsize, longPath, List.length_cons, List.length_replicate]

theorem parse_longPath {n : ℕ} (hn : n + 1 ≤ httpCrate.maxLen) :
    httpCrate.parsePathAndQuery (longPath n) = some ⟨longPath n⟩ := by
  have hfragment : withoutFragment (longPath n) = longPath n :=
    takeWhile_longPath n (by decide) (by decide)
  have hpath : (longPath n).takeWhile (· != '?') = longPath n := (split_longPath n).1
  have hquery : (longPath n).dropWhile (· != '?') = [] := by
    refine List.dropWhile_eq_nil_iff.2 fun c hc => ?_
    rcases mem_longPath hc with rfl | rfl <;> decide
  have hchars : (longPath n).all httpCrate.pathChar = true := by
    refine List.all_eq_true.2 fun c hc => ?_
    rcases mem_longPath hc with rfl | rfl <;> decide
  have hok : httpCrate.pathAndQueryOk (longPath n) = true := by
    rw [HttpCrate.pathAndQueryOk, hfragment, hpath, hquery, hchars]
    rfl
  rw [httpCrate_documented.path_text _ (Or.inl rfl) ((utf8Len_longPath n).trans_le hn) hok, hfragment]

/-- What `https://h` is read as. -/
def bareBase : Uri := ⟨some https, some ⟨['h']⟩, ⟨[]⟩⟩

theorem parse_bareBase : httpCrate.parseUri (httpsPrefix ++ ['h']) = some bareBase := by
  decide +kernel

theorem joinedText_longPath (n : ℕ) : joinedText bareBase (longPath n) = longPath n := by
  obtain ⟨hpath, hquery⟩ := split_longPath n
  have hbase : bareBase.path = ['/'] := by decide
  rw [joinedText, hpath, hquery, hbase, queryText, List.append_nil]
  rfl

theorem build_longPath {n : ℕ} (hn : n + 1 ≤ httpCrate.maxLen) :
    buildUpstreamUrl httpCrate (httpsPrefix ++ ['h']) (longPath n) =
      some ⟨some https, some ⟨['h']⟩, ⟨longPath n⟩⟩ := by
  rw [buildUpstreamUrl_eq httpCrate_documented parse_bareBase, joinedText_longPath,
    parse_longPath hn]
  rfl

/-- The text of the URL is longer than its path. -/
theorem toText_longPath (n : ℕ) :
    utf8Len (⟨some https, some ⟨['h']⟩, ⟨longPath n⟩⟩ : Uri).toText = n + 10 := by
  have htext : (⟨longPath n⟩ : PathAndQuery).toText = longPath n := by
    refine PathAndQuery.toText_eq ?_
    rw [takeWhile_longPath n (by decide) (by decide)]
    exact List.cons_ne_nil _ _
  have hprefix : utf8Len httpsPrefix = 8 := by decide
  have hhost : utf8Len ['h'] = 1 := by decide
  rw [toText_https, htext, utf8Len_append, utf8Len_append, utf8Len_longPath, hprefix, hhost]
  omega

/-- **A URL too long to be read back**: a path of 65531 bytes is joined and read as a path,
the URL is built, and its text of 65540 bytes is refused. -/
theorem long_url_unread :
    ConfigRs.validateListeners httpCrate (fun _ => []) [listenerRs "https://h".toList] = .ok () ∧
      '#' ∉ longPath 65530 ∧ utf8Len (joinedText bareBase (longPath 65530)) = 65531 ∧
        ∃ u, buildUpstreamUrl httpCrate "https://h".toList (longPath 65530) = some u ∧
          utf8Len u.toText = 65540 ∧ httpCrate.parseUri u.toText = none := by
  have hmax : httpCrate.maxLen = 65534 := rfl
  have hs : '#' ∉ longPath 65530 := by
    intro h
    rcases mem_longPath h with h | h
    · exact absurd h (by decide)
    · exact absurd h (by decide)
  have hu := build_longPath (n := 65530) (by omega)
  have hread := (onUpstream httpCrate_documented parse_bareBase hs hu).readBack
  have hlen := toText_longPath 65530
  have hjoined : utf8Len (joinedText bareBase (longPath 65530)) = 65531 := by
    rw [joinedText_longPath, utf8Len_longPath]
  rw [if_neg (by omega)] at hread
  exact ⟨by decide +kernel, hs, hjoined, _, hu, hlen, hread⟩

end Retrotls
