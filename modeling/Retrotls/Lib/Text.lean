import Retrotls.Lib.Tokens

/-!
# Text

A string is the list of its characters. `trim`, `trimEndMatches` and
`parseUnsigned` follow the documented behaviour of Rust's `str::trim`,
`str::trim_end_matches` and `<uN as FromStr>::from_str`; `decimal` is what
`to_string` prints for an unsigned integer, and `parse_decimal` says it is read back.
-/

namespace Retrotls

/-- A string, as its characters. -/
abbrev Str := List Char

/-- The length of a string in UTF-8 bytes (`str::len`). -/
def utf8Len : Str → ℕ
  | [] => 0
  | c :: s => c.utf8Size + utf8Len s

theorem utf8Len_append (s t : Str) : utf8Len (s ++ t) = utf8Len s + utf8Len t := by
  induction s with
  | nil => exact (Nat.zero_add _).symm
  | cons c s ih => rw [List.cons_append, utf8Len, utf8Len, ih, Nat.add_assoc]

/-- A text of ASCII characters has as many bytes. -/
theorem utf8Len_of_ascii {s : Str} (h : ∀ c ∈ s, c.utf8Size = 1) : utf8Len s = s.length := by
  induction s with
  | nil => rfl
  | cons c s ih =>
    obtain ⟨hc, hs⟩ := List.forall_mem_cons.1 h
    rw [utf8Len, hc, ih hs, List.length_cons, Nat.add_comm]

/-- The Unicode property `White_Space` (`char::is_whitespace`). -/
def isWhitespace (c : Char) : Bool :=
  (9 ≤ c.toNat && c.toNat ≤ 13) || c.toNat = 0x20 || c.toNat = 0x85 || c.toNat = 0xa0 ||
    c.toNat = 0x1680 || (0x2000 ≤ c.toNat && c.toNat ≤ 0x200a) || c.toNat = 0x2028 ||
    c.toNat = 0x2029 || c.toNat = 0x202f || c.toNat = 0x205f || c.toNat = 0x3000

/-- `str::trim`. -/
def trim (s : Str) : Str := (s.dropWhile isWhitespace).rdropWhile isWhitespace

/-- `str::trim_end_matches` with one character. -/
def trimEndMatches (s : Str) (c : Char) : Str := s.rdropWhile (· == c)

/-- `str::to_ascii_lowercase`. -/
def toAsciiLowercase (s : Str) : Str := s.map Char.toLower

/-- `str::eq_ignore_ascii_case`. -/
def eqIgnoreAsciiCase (s t : Str) : Bool := toAsciiLowercase s == toAsciiLowercase t

/-- `str::starts_with` with one character. -/
def startsWith (s : Str) (c : Char) : Bool := s.head? == some c

/-- `str::ends_with` with one character. -/
def endsWith (s : Str) (c : Char) : Bool := s.getLast? == some c

/-- `str::strip_prefix` with one character. -/
def stripStart (s : Str) (c : Char) : Option Str :=
  match s with
  | [] => none
  | x :: t => if x = c then some t else none

/-- `str::split_once` with one character. -/
def splitOnce (s : Str) (c : Char) : Option (Str × Str) :=
  match s.dropWhile (· != c) with
  | [] => none
  | _ :: t => some (s.takeWhile (· != c), t)

/-- Cutting a text where a predicate stops holding. -/
theorem takeWhile_append_stop {p : Char → Bool} {s t : Str} (hs : ∀ c ∈ s, p c = true)
    (ht : ∀ c, t.head? = some c → p c = false) : (s ++ t).takeWhile p = s := by
  rw [List.takeWhile_append_of_pos hs]
  cases t with
  | nil => simp
  | cons c t => rw [List.takeWhile_cons_of_neg (by simp [ht c rfl]), List.append_nil]

theorem dropWhile_append_stop {p : Char → Bool} {s t : Str} (hs : ∀ c ∈ s, p c = true)
    (ht : ∀ c, t.head? = some c → p c = false) : (s ++ t).dropWhile p = t := by
  rw [List.dropWhile_append_of_pos hs]
  cases t with
  | nil => rfl
  | cons c t => rw [List.dropWhile_cons_of_neg (by simp [ht c rfl])]

/-- A text is not cut at a character that it does not have. -/
theorem takeWhile_of_not_mem {s : Str} {c : Char} (h : c ∉ s) : s.takeWhile (· != c) = s := by
  refine List.takeWhile_eq_self_iff.2 fun x hx => ?_
  have hne : x ≠ c := fun he => h (he ▸ hx)
  simpa using hne

theorem head_dropWhile {p : Char → Bool} {s : Str} {c : Char}
    (h : (s.dropWhile p).head? = some c) : p c = false := by
  have := List.head?_dropWhile_not p s
  rwa [h] at this

/-- A text is split at the first place of the character. -/
theorem splitOnce_append {a b : Str} {c : Char} (h : c ∉ a) :
    splitOnce (a ++ c :: b) c = some (a, b) := by
  have ha : ∀ x ∈ a, (x != c) = true := fun x hx => by
    have hne : x ≠ c := fun he => h (he ▸ hx)
    simpa using hne
  have hc : ∀ x, (c :: b).head? = some x → (x != c) = false := fun x hx => by
    have he : c = x := by simpa using hx
    simp [he]
  rw [splitOnce, dropWhile_append_stop ha hc, takeWhile_append_stop ha hc]

theorem splitOnce_of_not_mem {s : Str} {c : Char} (h : c ∉ s) : splitOnce s c = none := by
  have hd : s.dropWhile (· != c) = [] := by
    refine List.dropWhile_eq_nil_iff.2 fun x hx => ?_
    have hne : x ≠ c := fun he => h (he ▸ hx)
    simpa using hne
  rw [splitOnce, hd]

/-- A text without the character, or two texts around its first place. -/
theorem split_cases (s : Str) (c : Char) :
    (c ∉ s ∧ splitOnce s c = none) ∨ ∃ a b, c ∉ a ∧ s = a ++ c :: b ∧ splitOnce s c = some (a, b) := by
  by_cases hm : c ∈ s
  · obtain ⟨a, b, rfl, ha⟩ := List.eq_append_cons_of_mem hm
    exact Or.inr ⟨a, b, ha, rfl, splitOnce_append ha⟩
  · exact Or.inl ⟨hm, splitOnce_of_not_mem hm⟩

theorem startsWith_iff {s : Str} {c : Char} : startsWith s c = true ↔ ∃ t, s = c :: t := by
  cases s with
  | nil => simp [startsWith]
  | cons x t =>
    constructor
    · intro h
      have hx : x = c := by simpa [startsWith] using h
      exact ⟨t, by rw [hx]⟩
    · rintro ⟨t', ht⟩
      obtain ⟨rfl, -⟩ := List.cons.inj ht
      simp [startsWith]

theorem ne_nil_of_startsWith {s : Str} {c : Char} (h : startsWith s c = true) : s ≠ [] := by
  rintro rfl
  cases h

theorem startsWith_append {s : Str} (hs : s ≠ []) (t : Str) (c : Char) :
    startsWith (s ++ t) c = startsWith s c := by
  obtain ⟨x, s, rfl⟩ := List.exists_cons_of_ne_nil hs
  rfl

theorem endsWith_append (s : Str) {t : Str} (ht : t ≠ []) (c : Char) :
    endsWith (s ++ t) c = endsWith t c := by
  unfold endsWith
  rw [List.getLast?_append_of_ne_nil s ht]

theorem endsWith_concat {s : Str} {x c : Char} : endsWith (s ++ [x]) c = true ↔ x = c := by
  simp [endsWith]

theorem endsWith_iff {s : Str} {c : Char} : endsWith s c = true ↔ ∃ t, s = t ++ [c] := by
  constructor
  · intro h
    rcases List.eq_nil_or_concat s with rfl | ⟨t, x, rfl⟩
    · cases h
    · rw [List.concat_eq_append, endsWith_concat] at h
      exact ⟨t, by rw [List.concat_eq_append, h]⟩
  · rintro ⟨t, rfl⟩
    exact endsWith_concat.2 rfl

/-- There is nothing to trim. -/
theorem trimEndMatches_eq_self {s : Str} {c : Char} :
    trimEndMatches s c = s ↔ endsWith s c = false := by
  rcases List.eq_nil_or_concat s with rfl | ⟨t, x, rfl⟩
  · simp [trimEndMatches, endsWith]
  · rw [List.concat_eq_append, ← Bool.not_eq_true, endsWith_concat, trimEndMatches,
      List.rdropWhile_eq_self_iff]
    simp

theorem trimEndMatches_concat (s : Str) (c : Char) :
    trimEndMatches (s ++ [c]) c = trimEndMatches s c :=
  List.rdropWhile_concat_pos _ s c (by simp)

theorem trimEndMatches_idem (s : Str) (c : Char) :
    trimEndMatches (trimEndMatches s c) c = trimEndMatches s c :=
  List.rdropWhile_idempotent _ s

/-- Trimming stops in the second text, unless it has nothing else. -/
theorem trimEndMatches_append (s t : Str) (c : Char) : trimEndMatches (s ++ t) c =
    if trimEndMatches t c = [] then trimEndMatches s c else s ++ trimEndMatches t c := by
  unfold trimEndMatches List.rdropWhile
  rw [List.reverse_append, List.dropWhile_append]
  by_cases h : (t.reverse.dropWhile (· == c)) = []
  · simp [h]
  · simp [h]

theorem trimEndMatches_isPrefix (s : Str) (c : Char) : List.IsPrefix (trimEndMatches s c) s :=
  List.rdropWhile_prefix _ s

theorem stripStart_cons (c : Char) (t : Str) : stripStart (c :: t) c = some t := if_pos rfl

theorem stripStart_eq_none {s : Str} {c : Char} (h : startsWith s c = false) :
    stripStart s c = none := by
  cases s with
  | nil => rfl
  | cons x t =>
    have hx : x ≠ c := by simpa [startsWith] using h
    exact if_neg hx

theorem trimEndMatches_eq_nil {s : Str} {c : Char} :
    trimEndMatches s c = [] ↔ ∀ x ∈ s, x = c := by
  unfold trimEndMatches
  rw [List.rdropWhile_eq_nil_iff]
  simp only [beq_iff_eq]

/-- Text without whitespace is its own trimming. -/
theorem trim_of_forall {s : Str} (h : ∀ c ∈ s, isWhitespace c = false) : trim s = s :=
  trimBoth_of_forall h

/-- Only the upper-case letters of ASCII change. -/
theorem toLower_of_not_upper {c : Char} (h : ¬ (0x41 ≤ c.toNat ∧ c.toNat ≤ 0x5a)) :
    c.toLower = c := by
  unfold Char.toLower
  rw [dif_neg]
  rintro ⟨h1, h2⟩
  exact h ⟨h1, h2⟩

theorem toLower_toLower (c : Char) : c.toLower.toLower = c.toLower := by
  by_cases h : 0x41 ≤ c.toNat ∧ c.toNat ≤ 0x5a
  · refine toLower_of_not_upper ?_
    have hn : c.toLower.toNat = c.toNat + 32 := by
      unfold Char.toLower
      rw [dif_pos ⟨h.1, h.2⟩]
      change (c.val + 32).toNat = _
      rw [UInt32.toNat_add]
      change (c.toNat + 32) % 4294967296 = _
      omega
    omega
  · rw [toLower_of_not_upper h, toLower_of_not_upper h]

theorem toAsciiLowercase_idem (s : Str) :
    toAsciiLowercase (toAsciiLowercase s) = toAsciiLowercase s := by
  unfold toAsciiLowercase
  rw [List.map_map]
  exact List.map_congr_left fun c _ => toLower_toLower c

/-- An unsigned integer as `to_string` prints it. -/
def decimal (n : ℕ) : Str := Nat.toDigits 10 n

/-- The digits that `from_str` reads: an optional plus sign comes first. -/
def unsignedDigits : Str → Str
  | '+' :: ds => ds
  | ds => ds

/-- `from_str` for an unsigned integer type with `bound` values. -/
def parseUnsigned (bound : ℕ) (s : Str) : Option ℕ :=
  let ds := unsignedDigits s
  if ds ≠ [] ∧ ds.all Char.isDigit ∧ Nat.ofDigitChars 10 ds 0 < bound then
    some (Nat.ofDigitChars 10 ds 0)
  else none

/-- `u16::from_str`. -/
def parseU16 : Str → Option ℕ := parseUnsigned 65536

/-- `u32::from_str`. -/
def parseU32 : Str → Option ℕ := parseUnsigned 4294967296

theorem isDigit_of_mem_decimal {n : ℕ} {c : Char} (h : c ∈ decimal n) : c.isDigit = true :=
  Nat.isDigit_of_mem_toDigits (by decide) le_rfl h

theorem decimal_ne_nil (n : ℕ) : decimal n ≠ [] := Nat.toDigits_ne_nil

theorem unsignedDigits_decimal (n : ℕ) : unsignedDigits (decimal n) = decimal n := by
  cases h : decimal n with
  | nil => rfl
  | cons c ds =>
    have hc : c.isDigit = true := isDigit_of_mem_decimal (n := n) (h ▸ List.mem_cons_self)
    by_cases hp : c = '+'
    · rw [hp] at hc; exact absurd hc (by decide)
    · unfold unsignedDigits
      split
      · rename_i heq; exact absurd (List.cons.inj heq).1 hp
      · rfl

/-- **A printed integer is read back**, when the type holds it. -/
theorem parse_decimal {bound n : ℕ} (h : n < bound) : parseUnsigned bound (decimal n) = some n := by
  have hv : Nat.ofDigitChars 10 (decimal n) 0 = n := Nat.ofDigitChars_ten_toDigits
  simp only [parseUnsigned, unsignedDigits_decimal, hv]
  rw [if_pos]
  exact ⟨decimal_ne_nil n, List.all_eq_true.2 fun c hc => isDigit_of_mem_decimal hc, h⟩

theorem isWhitespace_of_isDigit {c : Char} (h : c.isDigit = true) : isWhitespace c = false := by
  have hc : 48 ≤ c.toNat ∧ c.toNat ≤ 57 := by
    simp only [Char.isDigit, Bool.and_eq_true, decide_eq_true_eq] at h
    exact ⟨h.1, h.2⟩
  simp only [isWhitespace, Bool.or_eq_false_iff, Bool.and_eq_false_imp, decide_eq_true_eq,
    decide_eq_false_iff_not]
  omega

theorem trim_decimal (n : ℕ) : trim (decimal n) = decimal n :=
  trim_of_forall fun _ hc => isWhitespace_of_isDigit (isDigit_of_mem_decimal hc)

end Retrotls
