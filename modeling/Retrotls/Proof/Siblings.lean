import Retrotls.Proof.Endpoint
import Retrotls.Proof.JoinUrl
import Retrotls.Proof.Target

/-!
# The program and its modules

`main.rs` validates its configuration and builds its targets itself; `config.rs` and
`http.rs` do both for the same purpose.

* `validators_agree`: **what `config.rs` accepts, `main.rs` accepts**, and what it asks for
  besides.
* `targets_agree`: **where both build the same URL** for a request.
-/

namespace Retrotls

open HttpRs (buildUpstreamUrl)

variable {H : HttpCrate} {uriError : Str → Str} {raw : Str} {up : Upstream}

/-! ## Configurations -/

/-- An entry of `listeners`, for `config.rs`. -/
def ListenerConfig.toRs (l : ListenerConfig) : ConfigRs.ListenerConfig := ⟨l.listen, l.upstream⟩

/-- An upstream that `config.rs` accepts. -/
theorem parseUpstream_of_rs (hH : H.Documented) (h : ConfigRs.UpstreamOk H raw) :
    trim raw ≠ [] ∧ ∃ up, parseUpstream H raw = .ok up := by
  obtain ⟨⟨rest, rfl⟩, hread⟩ := h
  obtain ⟨base, hbase⟩ := Option.isSome_iff_exists.1 hread
  obtain ⟨a, p, -, -, rfl⟩ := parseUri_https_parts hH hbase
  refine ⟨fun htrim => ?_, ⟨_, _, _, _⟩, parseUpstream_ok.2 ⟨a, hbase, rfl, rfl, rfl, rfl, rfl⟩⟩
  -- the first character stays
  have hdrop : (httpsPrefix ++ rest).dropWhile isWhitespace = httpsPrefix ++ rest :=
    List.dropWhile_cons_of_neg (by decide)
  rw [trim, hdrop, List.rdropWhile_eq_nil_iff] at htrim
  have hmem : 'h' ∈ httpsPrefix ++ rest := List.mem_append_left rest (by decide)
  exact absurd (htrim 'h' hmem) (by decide)

/-- **What `config.rs` accepts, `main.rs` accepts**, for a list with a listener; besides,
`config.rs` asks for distinct addresses and for `https://` in lower case. -/
theorem validators_agree (hH : H.Documented) (c : Config) :
    (ConfigRs.validateListeners H uriError (c.listeners.map ListenerConfig.toRs) = .ok () ∧
        c.listeners ≠ []) ↔
      (c.validate H = .ok () ∧ (c.listeners.map (·.listen)).Nodup ∧
        ∀ l ∈ c.listeners, List.IsPrefix httpsPrefix l.upstream) := by
  have hbinds : (c.listeners.map ListenerConfig.toRs).map (·.bind) = c.listeners.map (·.listen) := by
    rw [List.map_map]
    rfl
  have hrs : (∀ l ∈ c.listeners.map ListenerConfig.toRs, ConfigRs.UpstreamOk H l.upstream) ↔
      ∀ l ∈ c.listeners, ConfigRs.UpstreamOk H l.upstream := by
    rw [List.forall_mem_map]
    rfl
  rw [ConfigRs.validateListeners_ok hH, validate_ok, hbinds, hrs]
  constructor
  · rintro ⟨⟨hnodup, hok⟩, hne⟩
    exact ⟨⟨hne, fun l hl => parseUpstream_of_rs hH (hok l hl)⟩, hnodup, fun l hl => (hok l hl).1⟩
  · rintro ⟨⟨hne, hok⟩, hnodup, hpre⟩
    refine ⟨⟨hnodup, fun l hl => ⟨hpre l hl, ?_⟩⟩, hne⟩
    obtain ⟨-, up, hup⟩ := hok l hl
    obtain ⟨a, hu, -⟩ := parseUpstream_ok.1 hup
    rw [hu]
    rfl

/-- A scheme in upper case is accepted by `main.rs` alone. -/
theorem validators_agree_upper : (oneListener "HTTPS://h/".toList).validate httpCrate = .ok () ∧
    ConfigRs.validateListeners httpCrate (fun _ => [])
      ((oneListener "HTTPS://h/".toList).listeners.map ListenerConfig.toRs) ≠ .ok () := by
  refine ⟨by decide +kernel, fun hrs => ?_⟩
  have hboth := (validators_agree httpCrate_documented (oneListener "HTTPS://h/".toList)).1
    ⟨hrs, List.cons_ne_nil _ _⟩
  have hpre := hboth.2.2 _ (List.mem_singleton_self _)
  exact absurd (List.isPrefixOf_iff_prefix.2 hpre) (by decide)

/-! ## Targets -/

/-- There is no fragment in what is passed on. -/
theorem no_hash_targetText (hH : H.Documented) {r : Uri} (hr : H.Holds r) : '#' ∉ targetText r := by
  intro h
  have hstored : H.Stored ⟨targetText r⟩ := Or.inr (parse_targetText hH hr)
  have hfree : withoutFragment (targetText r) = targetText r := (hstored.ok hH).2
  rw [← hfree] at h
  exact absurd (List.mem_takeWhile_imp h) (by decide)

/-- **Where both build the same URL**: for an upstream whose path holds slashes only. -/
theorem targets_agree (hH : H.Documented) {rest : Str}
    (hup : parseUpstream H (httpsPrefix ++ rest) = .ok up) {r : Uri} (hr : H.Holds r)
    (hs : startsWith (targetText r) '/' = true) : buildUpstreamUrl H (httpsPrefix ++ rest) (targetText r) =
      some (buildTargetUri H up r.pathAndQuery) ↔ ∀ c ∈ up.base.path, c = '/' := by
  obtain ⟨a, hbase, -, ha, hat, -⟩ := parseUpstream_ok.1 hup
  have hslash := parseUri_https_path hH hbase
  have hne := ne_nil_of_startsWith hslash
  have hjoined : joinedText up.base (targetText r) =
      trimEndMatches up.base.path '/' ++ targetText r := by
    unfold joinedText
    rw [joinPaths_eq hne, joinPaths_of_slash hne (startsWith_pathPart hs), List.append_assoc,
      split_join]
  have hparse := parse_targetText hH hr
  rw [buildTargetUri_eq hH hup hr, ← trimEndMatches_eq_nil]
  constructor
  · intro h
    obtain ⟨-, hu⟩ := buildUpstreamUrl_some hH hbase (no_hash_targetText hH hr) h
    simp only [Uri.mk.injEq, PathAndQuery.mk.injEq] at hu
    rw [hjoined] at hu
    exact List.self_eq_append_left.1 hu.2.2
  · intro h
    rw [buildUpstreamUrl_eq hH hbase, hjoined, h, List.nil_append, hparse, ha, hat]
    rfl

theorem targets_agree_api : buildUpstreamUrl httpCrate apiBase (targetText v1Test) =
    some (buildTargetUri httpCrate apiUpstream v1Test.pathAndQuery) ↔
      ∀ c ∈ apiUpstream.base.path, c = '/' := by
  have hup : parseUpstream httpCrate (httpsPrefix ++ "api.com/base".toList) = .ok apiUpstream :=
    parse_apiBase
  exact targets_agree httpCrate_documented hup holds_v1Test (by decide +kernel)

end Retrotls
