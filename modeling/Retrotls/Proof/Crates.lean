import Retrotls.Spec.Forward
import Retrotls.Proof.Uri

/-!
# Concrete crates

Executable instances of the two parameters, after the crates' own algorithms: `httpCrate`
for the http crate and `rustls` for names. `httpCrate_documented` and
`rustls_documented` show that what is assumed of the crates can be met.
-/

namespace Retrotls

namespace Crate

/-! ## Authorities -/

/-- The characters of the `URI_CHARS` table. -/
def uriChar (c : Char) : Bool := c.isAlphanum || "!#$&'()*+,-./:;=?@[]_~".toList.contains c

/-- What the scan of an authority remembers. -/
structure Scan where
  colons : ℕ := 0
  startBracket : Bool := false
  endBracket : Bool := false
  percent : Bool := false
  deriving DecidableEq

/-- One character of `Authority::parse`. -/
def scanChar (st : Scan) (c : Char) : Option Scan :=
  if c = ':' then
    if 8 ≤ st.colons then none else some { st with colons := st.colons + 1 }
  else if c = '[' then
    if st.percent || st.startBracket then none else some { st with startBracket := true }
  else if c = ']' then
    if !st.startBracket || st.endBracket then none
    -- those colons and percent signs were part of an IP literal
    else some { st with endBracket := true, colons := 0, percent := false }
  else if c = '@' then some { st with colons := 0, percent := false }
  else if c = '%' then some { st with percent := true }
  else if uriChar c && inAuthority c then some st
  else none

/-- `Authority::try_from`. -/
def parseAuthority (t : Str) : Option Authority :=
  match t.foldlM scanChar {} with
  | none => none
  | some st =>
    if t ≠ [] ∧ st.startBracket = st.endBracket ∧ st.colons ≤ 1 ∧ t.getLast? ≠ some '@' ∧
        st.percent = false then some ⟨t⟩
    else none

theorem isGraphic_of_isAlphanum {c : Char} (h : c.isAlphanum = true) : isGraphic c = true := by
  have hc : (decide (65 ≤ c.toNat ∧ c.toNat ≤ 90) ||
      (decide (97 ≤ c.toNat) && decide (c.toNat ≤ 122)) ||
      (decide (48 ≤ c.toNat) && decide (c.toNat ≤ 57))) = true := h
  simp only [Bool.or_eq_true, Bool.and_eq_true, decide_eq_true_eq] at hc
  simp only [isGraphic, Bool.and_eq_true, decide_eq_true_eq]
  omega

theorem scanChar_graphic {st st' : Scan} {c : Char} (h : scanChar st c = some st') :
    isGraphic c = true ∧ inAuthority c = true := by
  unfold scanChar at h
  by_cases h1 : c = ':'
  · subst h1; decide
  by_cases h2 : c = '['
  · subst h2; decide
  by_cases h3 : c = ']'
  · subst h3; decide
  by_cases h4 : c = '@'
  · subst h4; decide
  by_cases h5 : c = '%'
  · subst h5; decide
  rw [if_neg h1, if_neg h2, if_neg h3, if_neg h4, if_neg h5] at h
  split at h
  · rename_i hc
    rw [Bool.and_eq_true] at hc
    refine ⟨?_, hc.2⟩
    have hu := hc.1
    simp only [uriChar, Bool.or_eq_true, List.contains_iff_mem] at hu
    rcases hu with hu | hu
    · exact isGraphic_of_isAlphanum hu
    · exact List.all_eq_true.1 (by decide :
        ("!#$&'()*+,-./:;=?@[]_~".toList.all isGraphic) = true) c hu
  · cases h

theorem foldlM_scan_graphic : ∀ (t : Str) (st st' : Scan), t.foldlM scanChar st = some st' →
    ∀ c ∈ t, isGraphic c = true ∧ inAuthority c = true := by
  intro t
  induction t with
  | nil => intro _ _ _ c hc; cases hc
  | cons x t ih =>
    intro st st' h c hc
    rw [List.foldlM_cons] at h
    obtain ⟨st₁, h₁, h₂⟩ := Option.bind_eq_some_iff.1 h
    rcases List.mem_cons.1 hc with rfl | hc
    · exact scanChar_graphic h₁
    · exact ih st₁ st' h₂ c hc

theorem parseAuthority_text {t : Str} {a : Authority} (h : parseAuthority t = some a) :
    a.text = t ∧ t ≠ [] ∧ ∀ c ∈ t, isGraphic c = true ∧ inAuthority c = true := by
  unfold parseAuthority at h
  split at h
  · cases h
  · rename_i st hst
    split at h
    · rename_i hok
      rw [Option.some.injEq] at h
      exact ⟨by rw [← h], hok.1, foldlM_scan_graphic t _ st hst⟩
    · cases h

/-- `Authority::port_u16`: what follows the last colon, if it is a number. -/
def portU16 (a : Authority) : Option ℕ :=
  if ':' ∈ a.text then parseU16 (a.text.rtakeWhile (· != ':')) else none

theorem parseU16_none {s : Str} {c : Char} (hc : c ∈ s) (hd : c.isDigit = false) (hp : c ≠ '+') :
    parseU16 s = none := by
  have hmem : c ∈ unsignedDigits s := by
    unfold unsignedDigits
    split
    · rename_i ds
      rcases List.mem_cons.1 hc with h | h
      · exact absurd h hp
      · exact h
    · exact hc
  unfold parseU16
  simp only [parseUnsigned]
  rw [if_neg]
  rintro ⟨-, h, -⟩
  rw [List.all_eq_true] at h
  rw [h c hmem] at hd
  cases hd

theorem rtakeWhile_append {p : Char → Bool} {s t : Str} (ht : ∀ c ∈ t, p c = true) :
    (s ++ t).rtakeWhile p = s.rtakeWhile p ++ t := by
  have hr : ∀ c ∈ t.reverse, p c = true := fun c hc => ht c (List.mem_reverse.1 hc)
  rw [List.rtakeWhile, List.reverse_append, List.takeWhile_append_of_pos hr, List.reverse_append,
    List.reverse_reverse, List.rtakeWhile]

theorem mem_rtakeWhile {p : Char → Bool} {s : Str} {c : Char} (h : c ∈ s.rtakeWhile p) :
    p c = true := by
  rw [List.rtakeWhile, List.mem_reverse] at h
  exact List.mem_takeWhile_imp h

theorem colon_free {t : Str} {c : Char} (hc : c ∈ t.rtakeWhile inPort) : (c != ':') = true := by
  have hin := mem_rtakeWhile hc
  simp only [inPort, Bool.and_eq_true] at hin
  exact hin.1.1

/-- A text is cut after its last character that ends a port, if there is one. -/
theorem cut_port (t : Str) : (t.rdropWhile inPort = [] ∧ t = t.rtakeWhile inPort) ∨
    ∃ q x, t.rdropWhile inPort = q ++ [x] ∧ inPort x = false ∧ t = q ++ x :: t.rtakeWhile inPort := by
  have hsplit : t.rdropWhile inPort ++ t.rtakeWhile inPort = t :=
    List.rdropWhile_append_rtakeWhile
  rcases List.eq_nil_or_concat (t.rdropWhile inPort) with hq | ⟨q, x, hq⟩
  · rw [hq, List.nil_append] at hsplit
    exact Or.inl ⟨hq, hsplit.symm⟩
  · rw [List.concat_eq_append] at hq
    have hne : t.rdropWhile inPort ≠ [] := by rw [hq]; simp
    have hlast := List.rdropWhile_last_not inPort t hne
    have hx : inPort x = false := by simpa [hq] using hlast
    rw [hq, List.append_assoc, List.singleton_append] at hsplit
    exact Or.inr ⟨q, x, hq, hx, hsplit.symm⟩

/-- The last colon is the port colon. -/
theorem portU16_colon {t q : Str} (ht : t = q ++ ':' :: t.rtakeWhile inPort) :
    portU16 ⟨t⟩ = parseU16 (t.rtakeWhile inPort) := by
  have hmem : ':' ∈ t := by rw [ht]; simp
  have hcut : (q ++ ':' :: t.rtakeWhile inPort).rtakeWhile (· != ':') = t.rtakeWhile inPort := by
    rw [← List.singleton_append, ← List.append_assoc, rtakeWhile_append fun _ hc => colon_free hc,
      List.rtakeWhile_concat_neg (· != ':') q ':' (by decide), List.nil_append]
  rw [← ht] at hcut
  rw [portU16, if_pos hmem, hcut]

/-- The last colon is in the user information or the IP literal: what follows it is no
number. -/
theorem portU16_other {t q : Str} {x : Char} (ht : t = q ++ x :: t.rtakeWhile inPort)
    (hx : inPort x = false) (hxc : x ≠ ':') : portU16 ⟨t⟩ = none := by
  have hmem : x ∈ (q ++ x :: t.rtakeWhile inPort).rtakeWhile (· != ':') := by
    have hfree : ∀ c ∈ x :: t.rtakeWhile inPort, (c != ':') = true := by
      intro c hc
      rcases List.mem_cons.1 hc with rfl | hc
      · simpa using hxc
      · exact colon_free hc
    rw [rtakeWhile_append hfree]
    exact List.mem_append_right _ List.mem_cons_self
  rw [← ht] at hmem
  have hxe : x = '@' ∨ x = ']' := by
    simp only [inPort, bne, Bool.and_eq_false_iff, Bool.not_eq_false', beq_iff_eq] at hx
    rcases hx with (h | h) | h
    · exact absurd h hxc
    · exact Or.inl h
    · exact Or.inr h
  rw [portU16]
  split
  · rcases hxe with rfl | rfl
    · exact parseU16_none hmem (by decide) (by decide)
    · exact parseU16_none hmem (by decide) (by decide)
  · rfl

/-- **The port of an authority**: what follows its last colon, if that is its port colon. -/
theorem portU16_eq (t : Str) : portU16 ⟨t⟩ = (portText t).bind parseU16 := by
  rcases cut_port t with ⟨hq, ht⟩ | ⟨q, x, hq, hx, ht⟩
  · -- no character ends the port: the text has no colon at all
    have hno : ':' ∉ t := by
      intro h
      rw [ht] at h
      exact absurd (colon_free h) (by decide)
    rw [portU16, if_neg hno, portText, hq]
    rfl
  · have htext : portText t = if x = ':' then some (t.rtakeWhile inPort) else none := by
      simp only [portText, hq, List.getLast?_concat, Option.some.injEq]
    by_cases hxc : x = ':'
    · rw [htext, if_pos hxc, Option.bind_some]
      exact portU16_colon (hxc ▸ ht)
    · rw [htext, if_neg hxc, Option.bind_none]
      exact portU16_other ht hx hxc

/-! ## Paths -/

/-- The characters that `PathAndQuery` reads in a path: those of the URI syntax, and
those that clients send unescaped. -/
def pathChar (c : Char) : Bool :=
  let n := c.toNat
  n = 0x21 || n = 0x22 || (0x24 ≤ n && n ≤ 0x3b) || n = 0x3d || (0x40 ≤ n && n ≤ 0x5f) ||
    (0x61 ≤ n && n ≠ 0x7f)

/-- The characters that it reads in a query. -/
def queryChar (c : Char) : Bool :=
  let n := c.toNat
  n = 0x21 || (0x24 ≤ n && n ≤ 0x3b) || n = 0x3d || (0x3f ≤ n && n ≠ 0x7f)

/-- The longest text of a `Uri`. -/
def maxLen : ℕ := 65534

/-- The text of a path and query, character by character. -/
def pathAndQueryOk (t : Str) : Bool :=
  ((withoutFragment t).takeWhile (· != '?')).all pathChar &&
    ((withoutFragment t).dropWhile (· != '?')).tail.all queryChar

/-- `PathAndQuery::try_from`. -/
def parsePathAndQuery (t : Str) : Option PathAndQuery :=
  if HttpCrate.PathStart t ∧ utf8Len t ≤ maxLen ∧ pathAndQueryOk t = true then
    some ⟨withoutFragment t⟩
  else none

/-- The path and query after an authority. -/
def parseTail (t : Str) : Option PathAndQuery :=
  if withoutFragment t = [] then some ⟨[]⟩ else parsePathAndQuery t

/-! ## URIs -/

def http : Str := "http".toList

def httpPrefix : Str := "http://".toList

/-- The characters of a scheme. -/
def schemeChar (c : Char) : Bool := c.isAlphanum || c = '+' || c = '-' || c = '.'

/-- `Scheme2::parse`: the scheme and what follows its `://`, if the text has one. -/
def splitScheme (t : Str) : Option (Option Str × Str) :=
  if (t.take 7).map Char.toLower = httpPrefix then some (some http, t.drop 7)
  else if (t.take 8).map Char.toLower = httpsPrefix then some (some https, t.drop 8)
  else
    let s := t.takeWhile schemeChar
    match t.dropWhile schemeChar with
    | ':' :: '/' :: '/' :: rest => if 64 < s.length then none else some (some s, rest)
    | _ => some (none, t)

/-- `parse_full`: absolute form, or authority form without a scheme. -/
def parseFull (t : Str) : Option Uri :=
  match splitScheme t with
  | none => none
  | some (none, rest) => (parseAuthority rest).map fun a => ⟨none, some a, ⟨[]⟩⟩
  | some (some s, rest) =>
    (parseAuthority (rest.takeWhile inAuthority)).bind fun a =>
      (parseTail (rest.dropWhile inAuthority)).map fun p => ⟨some s, some a, p⟩

/-- `Uri::from_str`. -/
def parseUri (t : Str) : Option Uri :=
  if maxLen < utf8Len t then none
  else
    match t with
    | [] => none
    | ['*'] => some ⟨none, none, ⟨['*']⟩⟩
    | '/' :: rest => (parsePathAndQuery ('/' :: rest)).map fun p => ⟨none, none, p⟩
    | t => parseFull t

/-- `Scheme::try_from`. -/
def parseScheme (t : Str) : Option Str :=
  if t.all schemeChar && t.length ≤ 64 then some t else none

/-- `HeaderValue::from_str`: the bytes of a text without control characters but tabs. -/
def parseHeaderValue (t : Str) : Option HeaderValue :=
  if t.all fun c => (32 ≤ c.toNat && c.toNat ≠ 127) || c = '\t' then
    some (t.flatMap String.utf8EncodeChar)
  else none

end Crate

/-- The http crate. -/
def httpCrate : HttpCrate where
  parseUri := Crate.parseUri
  parseScheme := Crate.parseScheme
  parseAuthority := Crate.parseAuthority
  parsePathAndQuery := Crate.parsePathAndQuery
  host := fun a => hostText a.text
  portU16 := Crate.portU16
  parseHeaderValue := Crate.parseHeaderValue
  maxLen := Crate.maxLen
  pathChar := Crate.pathChar
  queryChar := Crate.queryChar

namespace Crate

theorem utf8Len_withoutFragment (t : Str) : utf8Len (withoutFragment t) ≤ utf8Len t := by
  obtain ⟨r, hr⟩ := List.takeWhile_prefix (l := t) (· != '#')
  have hsum : utf8Len (withoutFragment t) + utf8Len r = utf8Len t := by
    rw [← utf8Len_append]
    exact congrArg utf8Len hr
  exact hsum ▸ Nat.le_add_right _ _

/-- The start of a text stays without its fragment. -/
theorem pathStart_withoutFragment {t : Str} (h : HttpCrate.PathStart t) :
    HttpCrate.PathStart (withoutFragment t) := by
  rcases h with h | h | rfl
  · obtain ⟨r, rfl⟩ := startsWith_iff.1 h
    exact Or.inl rfl
  · obtain ⟨r, rfl⟩ := startsWith_iff.1 h
    exact Or.inr (Or.inl rfl)
  · exact Or.inr (Or.inr rfl)

/-- **What is read as a path and query**, and that its text is read again. -/
theorem parsePathAndQuery_spec {t : Str} {p : PathAndQuery} (h : parsePathAndQuery t = some p) :
    pathAndQueryOk t = true ∧ p.data = withoutFragment t ∧ parsePathAndQuery p.data = some p := by
  obtain ⟨⟨hstart, hlen, hok⟩, hp⟩ := Option.ite_none_right_eq_some.1 h
  have hdata : p.data = withoutFragment t := congrArg PathAndQuery.data (Option.some.inj hp).symm
  refine ⟨hok, hdata, ?_⟩
  have hidem := withoutFragment_idem t
  have hok' : pathAndQueryOk (withoutFragment t) = true := by
    rw [pathAndQueryOk, hidem]
    exact hok
  have hlen' := (utf8Len_withoutFragment t).trans hlen
  rw [hdata, parsePathAndQuery, if_pos ⟨pathStart_withoutFragment hstart, hlen', hok'⟩, hidem]
  exact hp

theorem parseTail_spec {t : Str} {p : PathAndQuery} (h : parseTail t = some p) :
    httpCrate.Follows t p ∧ httpCrate.Stored p := by
  unfold parseTail at h
  unfold HttpCrate.Follows
  split at h
  · rename_i hnil
    rw [if_pos hnil, ← Option.some.inj h]
    exact ⟨Or.inl rfl, Or.inl rfl⟩
  · rename_i hne
    rw [if_neg hne]
    exact ⟨h, Or.inr (parsePathAndQuery_spec h).2.2⟩

/-- What `Uri::from_str` returns: its form, and the texts of its parts. -/
theorem parseUri_spec {t : Str} {u : Uri} (h : parseUri t = some u) :
    u.Form ∧ (∀ a, u.authority = some a → ∃ s, parseAuthority s = some a) ∧
      httpCrate.Stored u.stored := by
  have hfull : parseFull t = some u → u.Form ∧
      (∀ a, u.authority = some a → ∃ s, parseAuthority s = some a) ∧
        httpCrate.Stored u.stored := by
    intro hf
    unfold parseFull at hf
    split at hf
    · cases hf
    · obtain ⟨a, ha, rfl⟩ := Option.map_eq_some_iff.1 hf
      refine ⟨.authority a, ?_, Or.inl rfl⟩
      rintro _ ⟨rfl⟩
      exact ⟨_, ha⟩
    · rename_i s rest _
      obtain ⟨a, ha, hf⟩ := Option.bind_eq_some_iff.1 hf
      obtain ⟨p, hp, rfl⟩ := Option.map_eq_some_iff.1 hf
      refine ⟨.absolute s a p, ?_, (parseTail_spec hp).2⟩
      rintro _ ⟨rfl⟩
      exact ⟨_, ha⟩
  unfold parseUri at h
  split at h
  · cases h
  · split at h
    · cases h
    · rw [Option.some.injEq] at h
      subst h
      exact ⟨.path _, fun _ ha => (by cases ha), Or.inr (by decide)⟩
    · obtain ⟨p, hp, rfl⟩ := Option.map_eq_some_iff.1 h
      exact ⟨.path p, fun _ ha => (by cases ha), Or.inr (parsePathAndQuery_spec hp).2.2⟩
    · exact hfull h

/-- Reading a text that starts with `https://`. -/
theorem parseUri_https_eq (rest : Str) : parseUri (httpsPrefix ++ rest) =
    if utf8Len (httpsPrefix ++ rest) ≤ maxLen then
      (parseAuthority (rest.takeWhile inAuthority)).bind fun a =>
        (parseTail (rest.dropWhile inAuthority)).map fun p => ⟨some https, some a, p⟩
    else none := by
  have hs : splitScheme (httpsPrefix ++ rest) = some (some https, rest) := by
    have h7 : (httpsPrefix ++ rest).take 7 = "https:/".toList := rfl
    have h8 : (httpsPrefix ++ rest).take 8 = httpsPrefix := rfl
    unfold splitScheme
    rw [h7, h8, if_neg (by decide), if_pos (by decide)]
    rfl
  have hf : parseFull (httpsPrefix ++ rest) =
      (parseAuthority (rest.takeWhile inAuthority)).bind fun a =>
        (parseTail (rest.dropWhile inAuthority)).map fun p => ⟨some https, some a, p⟩ := by
    unfold parseFull
    rw [hs]
  unfold parseUri
  by_cases hl : utf8Len (httpsPrefix ++ rest) ≤ maxLen
  · rw [if_neg (by omega), if_pos hl, ← hf]
    rfl
  · rw [if_pos (by omega), if_neg hl]

/-- The UTF-8 bytes of an ASCII text. -/
theorem utf8_ascii {t : Str} (h : ∀ c ∈ t, c.toNat < 128) :
    t.flatMap String.utf8EncodeChar = t.map fun c => UInt8.ofNat c.toNat := by
  induction t with
  | nil => rfl
  | cons c t ih =>
    obtain ⟨hc, ht⟩ := List.forall_mem_cons.1 h
    have hone : String.utf8EncodeChar c = [UInt8.ofNat c.toNat] := by
      have hle : c.toNat ≤ 127 := Nat.le_of_lt_succ hc
      simp [String.utf8EncodeChar, Nat.not_lt.2 hle]
    rw [List.flatMap_cons, hone, ih ht, List.map_cons, List.singleton_append]

/-- **An ASCII text without control characters but tabs** is a header value. -/
theorem parseHeaderValue_ascii {t : Str}
    (h : ∀ c ∈ t, (32 ≤ c.toNat ∧ c.toNat < 127) ∨ c = '\t') :
    parseHeaderValue t = some (t.map fun c => UInt8.ofNat c.toNat) := by
  have hall : (t.all fun c => (32 ≤ c.toNat && c.toNat ≠ 127) || c = '\t') = true := by
    refine List.all_eq_true.2 fun c hc => ?_
    simp only [Bool.or_eq_true, Bool.and_eq_true, decide_eq_true_eq]
    exact (h c hc).imp (fun hr => ⟨hr.1, by omega⟩) id
  rw [parseHeaderValue, if_pos hall, utf8_ascii]
  rintro c hc
  rcases h c hc with hr | rfl
  · omega
  · decide

end Crate

/-- **What is assumed of the http crate can be met.** -/
theorem httpCrate_documented : httpCrate.Documented where
  scheme_https := by decide
  max_len := rfl
  uri_https := fun rest u h => by
    have heq : Crate.parseUri (httpsPrefix ++ rest) = some u := h
    rw [Crate.parseUri_https_eq] at heq
    obtain ⟨hlen, heq⟩ := Option.ite_none_right_eq_some.1 heq
    obtain ⟨a, ha, heq⟩ := Option.bind_eq_some_iff.1 heq
    obtain ⟨p, hp, rfl⟩ := Option.map_eq_some_iff.1 heq
    exact ⟨hlen, a, p, ha, (Crate.parseTail_spec hp).1, rfl⟩
  uri_https_read := fun rest a p hlen ha hp hne => by
    have hdata := (Crate.parsePathAndQuery_spec hp).2.1
    have htail : Crate.parseTail (rest.dropWhile inAuthority) = some p :=
      (if_neg (hdata ▸ hne)).trans hp
    have hlen' : utf8Len (httpsPrefix ++ rest) ≤ Crate.maxLen := hlen
    have ha' : Crate.parseAuthority (rest.takeWhile inAuthority) = some a := ha
    show Crate.parseUri _ = _
    rw [Crate.parseUri_https_eq, if_pos hlen', ha', Option.bind_some, htail, Option.map_some]
  uri_form := fun _ _ h => (Crate.parseUri_spec h).1
  uri_authority := fun _ _ a h => (Crate.parseUri_spec h).2.1 a
  uri_path := fun _ _ h => (Crate.parseUri_spec h).2.2
  authority_text := fun _ _ h => Crate.parseAuthority_text h
  path_read := fun _ _ h => by
    obtain ⟨hok, hdata, hagain⟩ := Crate.parsePathAndQuery_spec h
    exact ⟨hok, hdata, Or.inr hagain⟩
  path_text := fun _ hstart hlen hok => if_pos ⟨hstart, hlen, hok⟩
  path_slash := by decide
  host_text := fun t a h => by
    have ht := (Crate.parseAuthority_text h).1
    show hostText a.text = _
    rw [ht]
  port_text := fun t a h => by
    have ht := (Crate.parseAuthority_text h).1
    rw [← ht]
    exact Crate.portU16_eq a.text
  header_graphic := fun s hs => by
    refine Crate.parseHeaderValue_ascii fun c hc => Or.inl ?_
    have hg := hs c hc
    simp only [isGraphic, Bool.and_eq_true, decide_eq_true_eq] at hg
    omega

/-! ## Names -/

namespace Crate

/-- Where the reading of a DNS name is. -/
inductive Label
  | start
  | next
  | numericOnly (len : ℕ)
  | nextAfterNumericOnly
  | subsequent (len : ℕ)
  | hyphen (len : ℕ)
  deriving DecidableEq

def isNameStart (c : Char) : Bool := c.isAlpha || c = '_'

/-- One character of a DNS name, inside a label of `len` characters. -/
def labelChar (len : ℕ) (numeric : Bool) (c : Char) : Option Label :=
  if 63 ≤ len then none
  else if c.isDigit then some (if numeric then .numericOnly (len + 1) else .subsequent (len + 1))
  else if c = '-' then some (.hyphen (len + 1))
  else if isNameStart c then some (.subsequent (len + 1))
  else none

/-- The first character of a label. -/
def labelStart (c : Char) : Option Label :=
  if c.isDigit then some (.numericOnly 1)
  else if isNameStart c then some (.subsequent 1)
  else none

/-- One character of a DNS name. -/
def dnsStep : Label → Char → Option Label
  | .subsequent len, c => if c = '.' then some .next else labelChar len false c
  | .numericOnly len, c => if c = '.' then some .nextAfterNumericOnly else labelChar len true c
  | .hyphen len, c => if c = '.' then none else labelChar len false c
  | _, c => labelStart c

/-- `DnsName::try_from`. -/
def dnsName (s : Str) : Bool :=
  s.length ≤ 253 &&
    match s.foldlM dnsStep .start with
    | some .next => true
    | some (.subsequent _) => true
    | _ => false

/-- A number below 256 without a leading zero. -/
def isOctet (s : Str) : Bool :=
  s ≠ [] && s.all Char.isDigit && s.length ≤ 3 && Nat.ofDigitChars 10 s 0 < 256 &&
    (s.length = 1 || s.head? ≠ some '0')

/-- `Ipv4Addr::from_str`. -/
def ipv4 (s : Str) : Bool :=
  s.all (fun c => c.isDigit || c = '.') && (s.splitOn '.').length = 4 && (s.splitOn '.').all isOctet

def isHex (c : Char) : Bool := c.isDigit || ('a' ≤ c && c ≤ 'f') || ('A' ≤ c && c ≤ 'F')

/-- One group of an IPv6 address. -/
def isGroup (s : Str) : Bool := s ≠ [] && s.length ≤ 4 && s.all isHex

/-- How many groups a text has: at its end, an IPv4 address stands for two. -/
def groups (tail : Bool) (s : Str) : Option ℕ :=
  if s = [] then some 0
  else
    let parts := s.splitOn ':'
    let last := parts.getLast?.getD []
    if !parts.dropLast.all isGroup then none
    else if isGroup last then some parts.length
    else if tail && ipv4 last then some (parts.length + 1)
    else none

/-- The text before and after the first `::`. -/
def splitDouble : Str → Option (Str × Str)
  | ':' :: ':' :: rest => some ([], rest)
  | [] => none
  | c :: rest => (splitDouble rest).map fun (a, b) => (c :: a, b)

/-- `Ipv6Addr::from_str`. -/
def ipv6 (s : Str) : Bool :=
  ':' ∈ s && '[' ∉ s &&
    match splitDouble s with
    | none => groups true s = some 8
    | some (a, b) =>
      match groups false a, groups true b with
      | some m, some n => m + n ≤ 7
      | _, _ => false

end Crate

/-- Names, as the TLS crates read them. -/
def rustls : Rustls where
  dnsName := Crate.dnsName
  ipv4 := Crate.ipv4
  ipv6 := Crate.ipv6
  serverName := fun s => Crate.dnsName s || Crate.ipv4 s || Crate.ipv6 s

/-- **What is assumed about names can be met.** -/
theorem rustls_documented : rustls.Documented where
  server_name := fun _ => rfl
  dns_nonempty := by decide
  ipv4_nonempty := by decide
  ipv6_chars := fun s h => by
    have h' : Crate.ipv6 s = true := h
    simp only [Crate.ipv6, Bool.and_eq_true, decide_eq_true_eq] at h'
    exact h'.1

end Retrotls
