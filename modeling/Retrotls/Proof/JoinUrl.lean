import Retrotls.Proof.UpstreamUrl

/-!
# The two joins of a URL

`join_paths` of `config.rs` joins a whole URL, and `build_upstream_url` of `http.rs` its
path.

* `joinPaths_url`: trimming a URL stops before its authority.
* `joinedText_eq`: the path and query that `build_upstream_url` gives the builder.
* `urls_agree`: **both give the same URL**, for a request text that starts with a slash.
-/

namespace Retrotls

open HttpRs (buildUpstreamUrl)

variable {H : HttpCrate} {uriError : Str → Str} {b s : Str}

/-- A join to a path that starts with a slash trims the base. -/
theorem joinPaths_of_slash (hb : b ≠ []) (hs : startsWith s '/' = true) :
    ConfigRs.joinPaths b s = trimEndMatches b '/' ++ s := by
  rw [joinPaths_leftPart hb (ne_nil_of_startsWith hs), hs]
  rfl

/-- An accepted authority has characters, and no slash. -/
theorem trim_authority {a t : Str} (ha : a ≠ []) (hslash : '/' ∉ a) :
    trimEndMatches (a ++ t) '/' = a ++ trimEndMatches t '/' := by
  rw [trimEndMatches_append]
  by_cases ht : trimEndMatches t '/' = []
  · have hlast : endsWith a '/' = false := by
      rw [Bool.eq_false_iff]
      intro he
      obtain ⟨r, rfl⟩ := endsWith_iff.1 he
      exact hslash (List.mem_append_right r (List.mem_singleton_self _))
    rw [if_pos ht, ht, List.append_nil]
    exact trimEndMatches_eq_self.2 hlast
  · rw [if_neg ht]

/-- **Joining a whole URL** trims its path only. -/
theorem joinPaths_url {a t : Str} (ha : a ≠ []) (hslash : '/' ∉ a) (hs : startsWith s '/' = true) :
    ConfigRs.joinPaths (httpsPrefix ++ (a ++ t)) s =
      httpsPrefix ++ (a ++ (trimEndMatches t '/' ++ s)) := by
  have hne : a ++ trimEndMatches t '/' ≠ [] := List.append_ne_nil_of_left_ne_nil ha _
  have htrim : trimEndMatches (httpsPrefix ++ (a ++ t)) '/' =
      httpsPrefix ++ (a ++ trimEndMatches t '/') := by
    rw [trimEndMatches_append, trim_authority ha hslash, if_neg hne]
  have hurl : httpsPrefix ++ (a ++ t) ≠ [] := List.append_ne_nil_of_left_ne_nil (by decide) _
  rw [joinPaths_of_slash hurl hs, htrim, List.append_assoc, List.append_assoc]

/-- A text without `?` and `#` is a path. -/
theorem path_of_clean {t : Str} (hq : '?' ∉ t) : trimEndMatches (⟨t⟩ : PathAndQuery).path '/' =
    trimEndMatches t '/' := by
  have htake : t.takeWhile (· != '?') = t := takeWhile_of_not_mem hq
  unfold PathAndQuery.path
  simp only [htake]
  by_cases ht : t = []
  · rw [if_pos ht, ht]
    decide
  · rw [if_neg ht]

/-- The path part of a text that starts with a slash does. -/
theorem startsWith_pathPart (hs : startsWith s '/' = true) : startsWith (pathPart s) '/' = true := by
  obtain ⟨t, rfl⟩ := startsWith_iff.1 hs
  rfl

/-- **The path and query of `build_upstream_url`**, for a base that has no query. -/
theorem joinedText_eq {a : Option Authority} {t : Str} (hq : '?' ∉ t)
    (hs : startsWith s '/' = true) :
    joinedText ⟨some https, a, ⟨t⟩⟩ s = trimEndMatches t '/' ++ s := by
  have hne : (⟨t⟩ : PathAndQuery).path ≠ [] := PathAndQuery.path_ne_nil _
  unfold joinedText
  rw [Uri.path_of_scheme, joinPaths_eq hne, joinPaths_of_slash hne (startsWith_pathPart hs),
    path_of_clean hq, List.append_assoc, split_join]

/-- What a join puts after the authority starts with a slash. -/
theorem startsWith_joined {rest : Str} (hq : '?' ∉ rest) (hf : '#' ∉ rest)
    (hs : startsWith s '/' = true) :
    startsWith (trimEndMatches (rest.dropWhile inAuthority) '/' ++ s) '/' = true := by
  by_cases ht : trimEndMatches (rest.dropWhile inAuthority) '/' = []
  · rw [ht, List.nil_append]
    exact hs
  · -- it is how the base's path starts
    obtain ⟨c, t, htrim⟩ := List.exists_cons_of_ne_nil ht
    obtain ⟨r, hr⟩ := trimEndMatches_isPrefix (rest.dropWhile inAuthority) '/'
    have hhead : (rest.dropWhile inAuthority).head? = some c := by
      rw [← hr, htrim]
      rfl
    have hend : inAuthority c = false := head_dropWhile hhead
    have hmem : c ∈ rest := (List.dropWhile_suffix _).subset (List.mem_of_mem_head? hhead)
    have hmark : c ≠ '?' := fun h => hq (h ▸ hmem)
    have hhash : c ≠ '#' := fun h => hf (h ▸ hmem)
    have hslash : c = '/' := by simpa [inAuthority, hmark, hhash] using hend
    rw [htrim, hslash]
    rfl

/-- What is stored for a text without a fragment trims to the same. -/
theorem trim_follows (hH : H.Documented) {t : Str} {p : PathAndQuery} (hp : H.Follows t p)
    (hq : '?' ∉ t) (hf : '#' ∉ t) :
    '?' ∉ p.data ∧ trimEndMatches p.data '/' = trimEndMatches t '/' := by
  have hfree : withoutFragment t = t := takeWhile_of_not_mem hf
  unfold HttpCrate.Follows at hp
  rw [hfree] at hp
  split at hp
  · rename_i hnil
    rcases hp with hp | hp <;> rw [hp, hnil] <;> decide
  · rw [(hH.path_read _ _ hp).2.1, hfree]
    exact ⟨hq, rfl⟩

/-- **Both joins read the same URL.** -/
theorem parse_joinPaths (hH : H.Documented) {rest : Str} {base : Uri}
    (hbase : H.parseUri (httpsPrefix ++ rest) = some base) (hq : '?' ∉ rest) (hf : '#' ∉ rest)
    (hs : startsWith s '/' = true)
    (hlen : utf8Len (ConfigRs.joinPaths (httpsPrefix ++ rest) s) ≤ H.maxLen) :
    H.parseUri (ConfigRs.joinPaths (httpsPrefix ++ rest) s) =
      buildUpstreamUrl H (httpsPrefix ++ rest) s := by
  rw [buildUpstreamUrl_eq hH hbase]
  obtain ⟨a, p, ha, hp, rfl⟩ := parseUri_https_parts hH hbase
  obtain ⟨hat, hne, hchars⟩ := hH.authority_text _ _ ha
  generalize hauth : rest.takeWhile inAuthority = auth at ha hat hne hchars
  generalize htail : rest.dropWhile inAuthority = tail at hp
  have hrest : auth ++ tail = rest := by
    rw [← hauth, ← htail]
    exact List.takeWhile_append_dropWhile
  have hslash : '/' ∉ auth := fun h => absurd (hchars '/' h).2 (by decide)
  have hqt : '?' ∉ tail := fun h => hq (hrest ▸ List.mem_append_right auth h)
  have hft : '#' ∉ tail := fun h => hf (hrest ▸ List.mem_append_right auth h)
  obtain ⟨hqp, htrim⟩ := trim_follows hH hp hqt hft
  have hjoin := joinPaths_url (s := s) (t := tail) hne hslash hs
  have hstart := htail ▸ startsWith_joined hq hf hs
  obtain ⟨r, hr⟩ := startsWith_iff.1 hstart
  have hend : ∀ c, (trimEndMatches tail '/' ++ s).head? = some c → inAuthority c = false := by
    intro c hc
    rw [hr, List.head?_cons, Option.some.injEq] at hc
    rw [← hc]
    decide
  have hpath : withoutFragment (trimEndMatches tail '/' ++ s) ≠ [] := by
    rw [hr, withoutFragment, List.takeWhile_cons_of_pos (by decide)]
    exact List.cons_ne_nil _ _
  rw [joinedText_eq hqp hs, htrim]
  rw [← hrest, hjoin] at hlen ⊢
  exact parseUri_https hH (fun c hc => (hchars c hc).2) hend hpath ha hlen

/-- **The two URL joins agree**, for a base that is accepted and has no query and no
fragment: one is read exactly where the other is built, and they have the same parts. -/
theorem urls_agree (hH : H.Documented) {ls : List ConfigRs.ListenerConfig}
    (hls : ConfigRs.validateListeners H uriError ls = .ok ()) {l : ConfigRs.ListenerConfig}
    (hl : l ∈ ls) (hq : '?' ∉ l.upstream) (hf : '#' ∉ l.upstream) (hs : startsWith s '/' = true)
    (hlen : utf8Len (ConfigRs.joinPaths l.upstream s) ≤ H.maxLen) :
    ((H.parseUri (ConfigRs.joinPaths l.upstream s)).isSome ↔
      (buildUpstreamUrl H l.upstream s).isSome) ∧
    ∀ u v, H.parseUri (ConfigRs.joinPaths l.upstream s) = some u →
      buildUpstreamUrl H l.upstream s = some v →
        u.scheme = v.scheme ∧ u.authority = v.authority ∧ u.path = v.path ∧ u.query = v.query := by
  obtain ⟨rest, base, hrest, hbase⟩ := accepted_upstream hH hls hl
  rw [hrest] at hbase hq hf hlen ⊢
  have hqr : '?' ∉ rest := fun h => hq (List.mem_append_right _ h)
  have hfr : '#' ∉ rest := fun h => hf (List.mem_append_right _ h)
  have heq := parse_joinPaths hH hbase hqr hfr hs hlen
  rw [heq]
  refine ⟨Iff.rfl, ?_⟩
  intro u v hu hv
  rw [hu, Option.some.injEq] at hv
  rw [hv]
  exact ⟨rfl, rfl, rfl, rfl⟩

/-- A base whose path ends with a slash, and what is asked of it. -/
def slashBase : Str := "https://example.com/api/".toList

def usersText : Str := "/v1/users?id=1".toList

theorem urls_agree_users :
    ((httpCrate.parseUri (ConfigRs.joinPaths slashBase usersText)).isSome ↔
      (buildUpstreamUrl httpCrate slashBase usersText).isSome) ∧
    ∀ u v, httpCrate.parseUri (ConfigRs.joinPaths slashBase usersText) = some u →
      buildUpstreamUrl httpCrate slashBase usersText = some v →
        u.scheme = v.scheme ∧ u.authority = v.authority ∧ u.path = v.path ∧ u.query = v.query := by
  have hls : ConfigRs.validateListeners httpCrate (fun _ => []) [listenerRs slashBase] = .ok () := by
    decide +kernel
  exact urls_agree (s := usersText) httpCrate_documented hls List.mem_cons_self (by decide)
    (by decide) (by decide) (by decide +kernel)

end Retrotls
