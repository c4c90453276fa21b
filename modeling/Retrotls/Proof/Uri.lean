import Retrotls.Spec.Http

/-!
# Texts of URIs

* `PathAndQuery.toText_eq`: a path and query prints as its text, but for a missing
  leading slash.
* `HttpCrate.Holds.form`, `HttpCrate.Holds.authority`, `HttpCrate.Holds.path`: what
  every `Uri` meets, however it was made.
* `parse_path_toText`: **what a path and query prints is read back** with the same
  path and query.
* `parseUri_https`: reading `https://`, an authority and a path that starts with `/`;
  `parse_toText_https`: **an `https` URI that is printed is read back**.
-/

namespace Retrotls

namespace PathAndQuery

/-- The text of a path and query, as `Display` of `Uri` prints it. -/
def toText (p : PathAndQuery) : Str := p.path ++ queryText p.query

/-- The text is cut at the first question mark. -/
theorem data_split (p : PathAndQuery) :
    p.data.takeWhile (· != '?') ++ queryText p.query = p.data := by
  have hq : queryText p.query = p.data.dropWhile (· != '?') := by
    unfold query
    split
    · rename_i h; rw [h]; rfl
    · rename_i c q h
      have hc := head_dropWhile (p := (· != '?')) (s := p.data) (c := c) (by rw [h]; rfl)
      rw [h, queryText, show c = '?' by simpa using hc]
  rw [hq, List.takeWhile_append_dropWhile]

theorem path_ne_nil (p : PathAndQuery) : p.path ≠ [] := by
  unfold path
  dsimp only
  split
  · simp
  · assumption

theorem no_mark_of_mem_path {p : PathAndQuery} {c : Char} (h : c ∈ p.path) : c ≠ '?' := by
  unfold path at h
  dsimp only at h
  split at h
  · rw [List.mem_singleton] at h; subst h; decide
  · simpa using List.mem_takeWhile_imp h

theorem head_queryText {q : Option Str} {c : Char} (h : (queryText q).head? = some c) : c = '?' := by
  cases q with
  | none => simp [queryText] at h
  | some q => simpa [queryText, eq_comm] using h

/-- A path and query whose text is a path and a query text. -/
theorem split_text {s : Str} {q : Option Str} (hs : s ≠ []) (hm : ∀ c ∈ s, c ≠ '?') :
    (⟨s ++ queryText q⟩ : PathAndQuery).path = s ∧ (⟨s ++ queryText q⟩ : PathAndQuery).query = q := by
  have h1 : ∀ c ∈ s, (c != '?') = true := fun c hc => by simpa using hm c hc
  have h2 : ∀ c, (queryText q).head? = some c → (c != '?') = false := fun c hc => by
    simp [head_queryText hc]
  constructor
  · simp only [path, takeWhile_append_stop h1 h2]
    rw [if_neg hs]
  · simp only [query, dropWhile_append_stop h1 h2]
    cases q <;> rfl

/-- Printing a path and query and taking it apart again. -/
theorem split_toText (p : PathAndQuery) :
    (⟨p.toText⟩ : PathAndQuery).path = p.path ∧ (⟨p.toText⟩ : PathAndQuery).query = p.query :=
  split_text p.path_ne_nil fun _ hc => no_mark_of_mem_path hc

/-- A text that does not start with its query is printed as it is. -/
theorem toText_eq {p : PathAndQuery} (h : p.data.takeWhile (· != '?') ≠ []) : p.toText = p.data := by
  conv_rhs => rw [← p.data_split]
  unfold toText path
  dsimp only
  rw [if_neg h]

/-- A text that starts with its query is printed after a slash. -/
theorem toText_eq_slash {p : PathAndQuery} (h : p.data.takeWhile (· != '?') = []) :
    p.toText = '/' :: p.data := by
  conv_rhs => rw [← p.data_split]
  unfold toText path
  dsimp only
  rw [if_pos h, h]
  rfl

end PathAndQuery

/-- `as_str` does not change the path. -/
theorem PathAndQuery.path_asStr (p : PathAndQuery) : (⟨p.asStr⟩ : PathAndQuery).path = p.path := by
  obtain ⟨d⟩ := p
  by_cases hd : d = []
  · rw [hd]
    rfl
  · rw [asStr, if_neg hd]

theorem PathAndQuery.query_asStr (p : PathAndQuery) :
    (⟨p.asStr⟩ : PathAndQuery).query = p.query := by
  obtain ⟨d⟩ := p
  by_cases hd : d = []
  · rw [hd]
    rfl
  · rw [asStr, if_neg hd]

theorem withoutFragment_idem (t : Str) : withoutFragment (withoutFragment t) = withoutFragment t := by
  unfold withoutFragment
  rw [List.takeWhile_takeWhile]
  simp only [and_self, Bool.decide_eq_true]

/-- A `Uri` with a scheme has the path it stores. -/
theorem Uri.path_of_scheme {s : Str} {a : Option Authority} {p : PathAndQuery} :
    (⟨some s, a, p⟩ : Uri).path = p.path := by
  unfold Uri.path
  exact if_pos (Or.inr rfl)

variable {H : HttpCrate} (hH : H.Documented)

include hH

/-- What is stored is a text of path and query characters, without a fragment. -/
theorem HttpCrate.Stored.ok {p : PathAndQuery} (h : H.Stored p) :
    H.pathAndQueryOk p.data = true ∧ withoutFragment p.data = p.data := by
  rcases h with h | h
  · rw [h]
    exact ⟨rfl, rfl⟩
  · obtain ⟨hok, hdata, -⟩ := hH.path_read _ _ h
    exact ⟨hok, hdata.symm⟩

/-- There is no `#` in the path of what is stored. -/
theorem no_hash_of_mem_path {p : PathAndQuery} (h : H.Stored p) {c : Char} (hc : c ∈ p.path) :
    c ≠ '#' := by
  have hf := (h.ok hH).2
  have hdata : ∀ x ∈ p.data, x ≠ '#' := by
    intro x hx
    rw [← hf] at hx
    simpa using List.mem_takeWhile_imp hx
  unfold PathAndQuery.path at hc
  dsimp only at hc
  split at hc
  · rw [List.mem_singleton] at hc
    rw [hc]
    decide
  · exact hdata c ((List.takeWhile_prefix _).subset hc)

theorem parse_slash : H.parsePathAndQuery ['/'] = some ⟨['/']⟩ := by
  have hs := hH.path_slash
  refine hH.path_text _ (Or.inl rfl) ?_ ?_
  · rw [hH.max_len]
    decide
  · simp [HttpCrate.pathAndQueryOk, withoutFragment, List.takeWhile, List.dropWhile, hs]

/-! ## What a `Uri` holds -/

theorem HttpCrate.Holds.form {u : Uri} (hu : H.Holds u) : u.Form := by
  rcases hu with ⟨t, ht⟩ | ⟨⟨scheme, authority, path⟩, -, hp⟩
  · exact hH.uri_form t u ht
  · cases scheme <;> cases authority <;> cases path <;> cases hp
    · exact .path _
    · exact .path _
    · exact .authority _
    · exact .absolute _ _ _

/-- The text of the authority is accepted again. -/
theorem HttpCrate.Holds.authority {u : Uri} (hu : H.Holds u) {a : Authority}
    (ha : u.authority = some a) : H.parseAuthority a.text = some a := by
  have hs : ∃ s, H.parseAuthority s = some a := by
    rcases hu with ⟨t, ht⟩ | ⟨⟨scheme, authority, path⟩, hok, hp⟩
    · exact hH.uri_authority t u a ht ha
    · refine hok.authority a ?_
      cases scheme <;> cases authority <;> cases path <;> cases hp <;> exact ha
  obtain ⟨s, hs⟩ := hs
  rw [(hH.authority_text s a hs).1]
  exact hs

/-- The path and query is empty, or its text is accepted again. -/
theorem HttpCrate.Holds.path {u : Uri} (hu : H.Holds u) : H.Stored u.stored := by
  rcases hu with ⟨t, ht⟩ | ⟨⟨scheme, authority, path⟩, hok, hp⟩
  · exact hH.uri_path t u ht
  · cases path with
    | none => cases scheme <;> cases authority <;> cases hp <;> exact Or.inl rfl
    | some p =>
      obtain ⟨s, hs⟩ := hok.pathAndQuery p rfl
      have hstored := (hH.path_read _ _ hs).2.2
      cases scheme <;> cases authority <;> cases hp <;> exact hstored

/-! ## Reading a printed text -/

/-- A slash before a text that starts with its query is accepted. -/
theorem parse_slash_cons {p : PathAndQuery} (h : H.Stored p)
    (ht : p.data.takeWhile (· != '?') = []) (hlen : utf8Len ('/' :: p.data) ≤ H.maxLen) :
    H.parsePathAndQuery ('/' :: p.data) = some ⟨'/' :: p.data⟩ := by
  obtain ⟨hok, hf⟩ := h.ok hH
  have hs := hH.path_slash
  have hf' : withoutFragment ('/' :: p.data) = '/' :: p.data := by
    unfold withoutFragment at hf ⊢
    rw [List.takeWhile_cons_of_pos (by decide), hf]
  have hok' : H.pathAndQueryOk ('/' :: p.data) = true := by
    simp only [HttpCrate.pathAndQueryOk, hf, ht, Bool.and_eq_true] at hok
    simp only [HttpCrate.pathAndQueryOk, hf', Bool.and_eq_true]
    rw [List.takeWhile_cons_of_pos (by decide), List.dropWhile_cons_of_pos (by decide), ht]
    exact ⟨by simp [hs], hok.2⟩
  rw [hH.path_text _ (Or.inl rfl) hlen hok', hf']

/-- **A printed path and query is read back**, with the same path and query. -/
theorem parse_path_toText {p : PathAndQuery} (h : H.Stored p) (hlen : utf8Len p.toText ≤ H.maxLen) :
    H.parsePathAndQuery p.toText = some ⟨p.toText⟩ := by
  by_cases ht : p.data.takeWhile (· != '?') = []
  · rw [PathAndQuery.toText_eq_slash ht] at hlen ⊢
    exact parse_slash_cons hH h ht hlen
  · rw [PathAndQuery.toText_eq ht]
    refine h.resolve_left fun hnil => ht ?_
    rw [hnil]
    rfl

/-- **Reading an `https://` text** whose authority is followed by a path or a query. -/
theorem parseUri_https {a t : Str} {auth : Authority} (ha : ∀ c ∈ a, inAuthority c = true)
    (ht : ∀ c, t.head? = some c → inAuthority c = false) (hne : withoutFragment t ≠ [])
    (hauth : H.parseAuthority a = some auth) (hlen : utf8Len (httpsPrefix ++ (a ++ t)) ≤ H.maxLen) :
    H.parseUri (httpsPrefix ++ (a ++ t)) =
      (H.parsePathAndQuery t).map fun p => ⟨some https, some auth, p⟩ := by
  have htake := takeWhile_append_stop ha ht
  have hdrop := dropWhile_append_stop ha ht
  cases hp : H.parsePathAndQuery t with
  | some p =>
    have hdata := (hH.path_read _ _ hp).2.1
    refine hH.uri_https_read _ auth p hlen ?_ ?_ (hdata ▸ hne)
    · rw [htake]
      exact hauth
    · rw [hdrop]
      exact hp
  | none =>
    cases hu : H.parseUri (httpsPrefix ++ (a ++ t)) with
    | none => rfl
    | some u =>
      obtain ⟨-, _, p, -, hp', -⟩ := hH.uri_https _ _ hu
      rw [hdrop, HttpCrate.Follows, if_neg hne, hp] at hp'
      cases hp'

/-- No text that is too long is read. -/
theorem parseUri_https_len {rest : Str} {u : Uri} (h : H.parseUri (httpsPrefix ++ rest) = some u) :
    utf8Len (httpsPrefix ++ rest) ≤ H.maxLen := (hH.uri_https _ _ h).1

/-- **What an `https://` text is read as.** -/
theorem parseUri_https_parts {rest : Str} {u : Uri} (h : H.parseUri (httpsPrefix ++ rest) = some u) :
    ∃ a p, H.parseAuthority (rest.takeWhile inAuthority) = some a ∧
      H.Follows (rest.dropWhile inAuthority) p ∧ u = ⟨some https, some a, p⟩ := (hH.uri_https _ _ h).2

/-- The authority that an `https://` text is read with. -/
theorem parseUri_https_authority {rest : Str} {u : Uri}
    (h : H.parseUri (httpsPrefix ++ rest) = some u) :
    u.authority = some ⟨rest.takeWhile inAuthority⟩ := by
  obtain ⟨a, p, ha, -, rfl⟩ := parseUri_https_parts hH h
  rw [← (hH.authority_text _ _ ha).1]

/-- The path that an `https://` text is read with starts with a slash. -/
theorem parseUri_https_path {rest : Str} {u : Uri} (h : H.parseUri (httpsPrefix ++ rest) = some u) :
    startsWith u.path '/' = true := by
  obtain ⟨a, p, -, hp, rfl⟩ := parseUri_https_parts hH h
  rw [Uri.path_of_scheme]
  unfold HttpCrate.Follows at hp
  unfold PathAndQuery.path
  split at hp
  · rcases hp with hp | hp <;> rw [hp] <;> rfl
  · rw [(hH.path_read _ _ hp).2.1]
    cases ht : rest.dropWhile inAuthority with
    | nil => rfl
    | cons c t =>
      have hc : inAuthority c = false := head_dropWhile (s := rest) (by rw [ht]; rfl)
      have hcases : c = '/' ∨ c = '?' ∨ c = '#' := by
        simp only [inAuthority, bne, Bool.and_eq_false_iff, Bool.not_eq_false', beq_iff_eq] at hc
        tauto
      rcases hcases with rfl | rfl | rfl <;> simp [withoutFragment, startsWith]

/-! ## Printing -/

omit hH in
/-- How a `Uri` with the scheme `https` is printed. -/
theorem toText_https (a : Authority) (p : PathAndQuery) :
    (⟨some https, some a, p⟩ : Uri).toText = httpsPrefix ++ (a.text ++ p.toText) := by
  have hpre : https ++ "://".toList = httpsPrefix := by decide
  rw [Uri.toText, Uri.path_of_scheme, PathAndQuery.toText, ← hpre]
  simp only [Option.map_some, Option.getD_some, List.append_assoc, Uri.query]

/-- **What is printed is read back**, unless it is too long. -/
theorem parse_toText_https {a : Authority} {p : PathAndQuery}
    (ha : H.parseAuthority a.text = some a) (hp : H.Stored p) (hs : startsWith p.path '/' = true) :
    H.parseUri (httpsPrefix ++ (a.text ++ p.toText)) =
      if utf8Len (httpsPrefix ++ (a.text ++ p.toText)) ≤ H.maxLen then
        some ⟨some https, some a, ⟨p.toText⟩⟩ else none := by
  split
  · rename_i hlen
    obtain ⟨t, ht⟩ := startsWith_iff.1 hs
    have htext : p.toText = '/' :: (t ++ queryText p.query) := by
      rw [PathAndQuery.toText, ht, List.cons_append]
    have hend : ∀ c, p.toText.head? = some c → inAuthority c = false := by
      intro c hc
      rw [htext, List.head?_cons, Option.some.injEq] at hc
      rw [← hc]
      decide
    have hne : withoutFragment p.toText ≠ [] := by
      rw [htext, withoutFragment, List.takeWhile_cons_of_pos (by decide)]
      exact List.cons_ne_nil _ _
    have hauth : ∀ c ∈ a.text, inAuthority c = true := fun c hc =>
      ((hH.authority_text _ _ ha).2.2 c hc).2
    have hshort : utf8Len p.toText ≤ H.maxLen := by
      rw [utf8Len_append, utf8Len_append] at hlen
      omega
    rw [parseUri_https hH hauth hend hne ha hlen, parse_path_toText hH hp hshort]
    rfl
  · rename_i hlen
    rw [Option.eq_none_iff_forall_ne_some]
    intro u hu
    exact hlen (parseUri_https_len hH hu)

end Retrotls
