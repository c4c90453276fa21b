import Retrotls.Spec.ConfigRs
import Retrotls.Spec.HttpRs

/-!
# Joining two paths

* `joinPaths_eq`: the two `join_paths` agree on a base that is not empty.
* `joinPaths_law`: where one side of the boundary has no slash too many, a join is the
  base without its trailing slashes, a slash, and the path without a leading one.
* `boundary_law_iff`: both joins obey that law exactly when the base does not end with
  two slashes, or the path starts with one.
* `joinPaths_monoid`: **the join of `config.rs` is associative**, and the empty text is its
  neutral element.
-/

namespace Retrotls

variable {b p : Str}

/-- What a join puts before a path, which starts with a slash or not. -/
def leftPart (b : Str) (slash : Bool) : Str :=
  if slash then trimEndMatches b '/' else if endsWith b '/' then b else b ++ ['/']

/-- **A join in closed form.** -/
theorem joinPaths_leftPart (hb : b ≠ []) (hp : p ≠ []) :
    ConfigRs.joinPaths b p = leftPart b (startsWith p '/') ++ p := by
  unfold ConfigRs.joinPaths leftPart
  rw [if_neg hb, if_neg hp]
  cases he : endsWith b '/' with
  | true => cases startsWith p '/' <;> simp
  | false =>
    have htrim : trimEndMatches b '/' = b := trimEndMatches_eq_self.2 he
    cases startsWith p '/' <;> simp [htrim]

/-- The two `join_paths` differ on an empty base only. -/
theorem joinPaths_eq (hb : b ≠ []) : HttpRs.joinPaths b p = ConfigRs.joinPaths b p := by
  unfold HttpRs.joinPaths ConfigRs.joinPaths
  simp only [if_neg hb]
  split
  · rfl
  · cases hbs : endsWith b '/' with
    | true => cases startsWith p '/' <;> simp
    | false =>
      -- a base that is one slash ends with a slash
      have hne : b ≠ ['/'] := by
        rintro rfl
        exact absurd hbs (by decide)
      cases startsWith p '/' <;> simp [hne]

/-- One trailing slash is left over when the others are trimmed, unless there are others. -/
theorem eq_trim_slash_iff (h : endsWith b '/' = true) :
    b = trimEndMatches b '/' ++ ['/'] ↔ ¬ List.IsSuffix ['/', '/'] b := by
  obtain ⟨t, rfl⟩ := endsWith_iff.1 h
  have hsuffix : List.IsSuffix ['/', '/'] (t ++ ['/']) ↔ endsWith t '/' = true := by
    rw [endsWith_iff]
    constructor
    · rintro ⟨r, hr⟩
      have hr' : (r ++ ['/']) ++ ['/'] = t ++ ['/'] := by simpa using hr
      exact ⟨r, (List.append_cancel_right hr').symm⟩
    · rintro ⟨r, rfl⟩
      exact ⟨r, by simp⟩
  rw [trimEndMatches_concat, hsuffix, Bool.not_eq_true, ← trimEndMatches_eq_self]
  constructor
  · intro ht
    exact (List.append_cancel_right ht).symm
  · intro ht
    rw [ht]

/-- The base without its trailing slashes, one slash, and the path without a leading one. -/
def oneSlash (b p : Str) : Str := trimEndMatches b '/' ++ '/' :: (stripStart p '/').getD p

/-- **When a join puts one slash at the boundary.** -/
theorem joinPaths_law (hb : b ≠ []) (hp : p ≠ []) : ConfigRs.joinPaths b p = oneSlash b p ↔
    ¬ (List.IsSuffix ['/', '/'] b ∧ startsWith p '/' = false) := by
  rw [joinPaths_leftPart hb hp]
  cases hps : startsWith p '/' with
  | true =>
    obtain ⟨t, rfl⟩ := startsWith_iff.1 hps
    simp [leftPart, oneSlash, stripStart_cons]
  | false =>
    have hleft : leftPart b false ++ p = oneSlash b p ↔
        leftPart b false = trimEndMatches b '/' ++ ['/'] := by
      unfold oneSlash
      rw [stripStart_eq_none hps, Option.getD_none, ← List.singleton_append, ← List.append_assoc,
        List.append_left_inj]
    rw [hleft, eq_self, and_true]
    cases hbs : endsWith b '/' with
    | true =>
      -- the case that does not trim
      have hself : leftPart b false = b := if_pos hbs
      rw [hself, eq_trim_slash_iff hbs]
    | false =>
      have htrim : trimEndMatches b '/' = b := trimEndMatches_eq_self.2 hbs
      have hno : ¬ List.IsSuffix ['/', '/'] b := by
        rintro ⟨r, rfl⟩
        simp [endsWith] at hbs
      simp [leftPart, hbs, htrim, hno]

/-- **The boundary law of a join**: one slash, and a leading slash of the path changes
nothing. -/
def BoundaryLaw (join : Str → Str → Str) (b p : Str) : Prop :=
  join b p = oneSlash b p ∧ (startsWith p '/' = false → join b p = join b ('/' :: p))

theorem joinPaths_boundary (hb : b ≠ []) (hp : p ≠ []) :
    BoundaryLaw ConfigRs.joinPaths b p ↔
      ¬ (List.IsSuffix ['/', '/'] b ∧ startsWith p '/' = false) := by
  rw [← joinPaths_law hb hp]
  constructor
  · rintro ⟨h, -⟩
    exact h
  · intro h
    refine ⟨h, fun hps => ?_⟩
    have hslash : ConfigRs.joinPaths b ('/' :: p) = oneSlash b ('/' :: p) :=
      (joinPaths_law hb (by simp)).2 (by simp [startsWith])
    rw [h, hslash, oneSlash, oneSlash, stripStart_cons, stripStart_eq_none hps]
    rfl

/-- **Both joins obey the law** exactly when the slashes at the boundary are at most one
of the base's, or the path brings its own. -/
theorem boundary_law_iff (hb : b ≠ []) (hp : p ≠ []) :
    BoundaryLaw ConfigRs.joinPaths b p ∧ BoundaryLaw HttpRs.joinPaths b p ↔
      ¬ (List.IsSuffix ['/', '/'] b ∧ startsWith p '/' = false) := by
  have hsame : HttpRs.joinPaths b = ConfigRs.joinPaths b := by
    funext p
    exact joinPaths_eq hb
  have hlaw : BoundaryLaw HttpRs.joinPaths b p ↔ BoundaryLaw ConfigRs.joinPaths b p := by
    unfold BoundaryLaw
    rw [hsame]
  rw [hlaw, and_self, joinPaths_boundary hb hp]

theorem boundary_law_base : ¬ (List.IsSuffix ['/', '/'] "a/".toList ∧ startsWith "x".toList '/' = false) ∧
    BoundaryLaw ConfigRs.joinPaths "a/".toList "x".toList ∧
      BoundaryLaw HttpRs.joinPaths "a/".toList "x".toList := by
  have h : ¬ (List.IsSuffix ['/', '/'] "a/".toList ∧ startsWith "x".toList '/' = false) := by decide
  exact ⟨h, (boundary_law_iff (by decide) (by decide)).2 h⟩

/-- Two slashes of the base stay before a path that has none. -/
theorem two_slashes_kept : ConfigRs.joinPaths "a//".toList "x".toList = "a//x".toList ∧
    HttpRs.joinPaths "a//".toList "x".toList = "a//x".toList ∧
      ¬ (∀ b p : Str, b ≠ [] → p ≠ [] →
        BoundaryLaw ConfigRs.joinPaths b p ∧ BoundaryLaw HttpRs.joinPaths b p) := by
  refine ⟨by decide, by decide, fun h => ?_⟩
  have h1 := (boundary_law_iff (by decide) (by decide)).1 (h "a//".toList "x".toList (by decide) (by decide))
  exact h1 (by decide)

/-! ## Any grouping -/

/-- A text that is slashes only starts with one. -/
theorem startsWith_of_trim (hb : b ≠ []) (h : trimEndMatches b '/' = []) :
    startsWith b '/' = true := by
  obtain ⟨c, t, rfl⟩ := List.exists_cons_of_ne_nil hb
  have hc : c = '/' := trimEndMatches_eq_nil.1 h c List.mem_cons_self
  exact startsWith_iff.2 ⟨t, by rw [hc]⟩

/-- A join starts with a slash exactly if its base does. -/
theorem startsWith_leftPart (hb : b ≠ []) (p : Str) :
    startsWith (leftPart b (startsWith p '/') ++ p) '/' = startsWith b '/' := by
  unfold leftPart
  cases hs : startsWith p '/' with
  | true =>
    rw [if_pos rfl]
    by_cases ht : trimEndMatches b '/' = []
    · -- the base is slashes only, and the path brings the slash
      rw [ht, List.nil_append, hs, startsWith_of_trim hb ht]
    · obtain ⟨r, hr⟩ := trimEndMatches_isPrefix b '/'
      have hrest := startsWith_append ht r '/'
      rw [hr] at hrest
      rw [startsWith_append ht, hrest]
  | false =>
    rw [if_neg Bool.false_ne_true]
    by_cases he : endsWith b '/' = true
    · rw [if_pos he, startsWith_append hb]
    · rw [if_neg he, List.append_assoc, startsWith_append hb]

/-- **What goes before a third part** is not trimmed beyond the second one: where that is
slashes only, the first has been trimmed before. -/
theorem leftPart_append (a : Str) (hb : b ≠ []) (slash : Bool) :
    leftPart (leftPart a (startsWith b '/') ++ b) slash =
      leftPart a (startsWith b '/') ++ leftPart b slash := by
  cases slash with
  | true =>
    have htrim : ∀ x : Str, leftPart x true = trimEndMatches x '/' := fun x => if_pos rfl
    rw [htrim (leftPart a _ ++ b), htrim b, trimEndMatches_append]
    by_cases ht : trimEndMatches b '/' = []
    · rw [if_pos ht, ht, startsWith_of_trim hb ht, htrim, trimEndMatches_idem, List.append_nil]
    · rw [if_neg ht]
  | false =>
    have hkeep : ∀ x : Str, leftPart x false = if endsWith x '/' then x else x ++ ['/'] :=
      fun x => if_neg Bool.false_ne_true
    rw [hkeep (leftPart a _ ++ b), hkeep b, endsWith_append _ hb]
    by_cases he : endsWith b '/' = true
    · rw [if_pos he, if_pos he]
    · rw [if_neg he, if_neg he, List.append_assoc]

theorem joinPaths_nil_left (a : Str) : ConfigRs.joinPaths [] a = a := if_pos rfl

theorem joinPaths_nil_right (a : Str) : ConfigRs.joinPaths a [] = a := by
  unfold ConfigRs.joinPaths
  by_cases ha : a = []
  · rw [if_pos ha, ha]
  · rw [if_neg ha, if_pos rfl]

theorem joinPaths_assoc (a b c : Str) : ConfigRs.joinPaths (ConfigRs.joinPaths a b) c =
    ConfigRs.joinPaths a (ConfigRs.joinPaths b c) := by
  by_cases ha : a = []
  · rw [ha, joinPaths_nil_left, joinPaths_nil_left]
  by_cases hb : b = []
  · rw [hb, joinPaths_nil_right, joinPaths_nil_left]
  by_cases hc : c = []
  · rw [hc, joinPaths_nil_right, joinPaths_nil_right]
  have hab : leftPart a (startsWith b '/') ++ b ≠ [] := List.append_ne_nil_of_right_ne_nil _ hb
  have hbc : leftPart b (startsWith c '/') ++ c ≠ [] := List.append_ne_nil_of_right_ne_nil _ hc
  have hstart := startsWith_leftPart hb c
  rw [joinPaths_leftPart ha hb, joinPaths_leftPart hb hc, joinPaths_leftPart hab hc,
    joinPaths_leftPart ha hbc, hstart, leftPart_append a hb, List.append_assoc]

/-- **`join_paths` of `config.rs` is a monoid.** -/
theorem joinPaths_monoid : (∀ a b c : Str, ConfigRs.joinPaths (ConfigRs.joinPaths a b) c =
      ConfigRs.joinPaths a (ConfigRs.joinPaths b c)) ∧
    ∀ a : Str, ConfigRs.joinPaths [] a = a ∧ ConfigRs.joinPaths a [] = a :=
  ⟨joinPaths_assoc, fun a => ⟨joinPaths_nil_left a, joinPaths_nil_right a⟩⟩

end Retrotls
