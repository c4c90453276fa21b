import Retrotls.Lib.Pool
import Retrotls.Proof.Uri
import Retrotls.Proof.Crates
import Retrotls.Spec.ConfigRs

/-!
# What `validate_listeners` accepts

* `validateFrom_cons`: one listener, which is accepted or blamed.
* `validateFrom_ok`, `validateFrom_error`: the loop.
* `validateListeners_spec`: **it accepts exactly the lists without an offender, and blames
  the first offender otherwise**.
-/

namespace Retrotls.ConfigRs

variable {H : HttpCrate} {uriError : Str → Str} {ls : List ListenerConfig} {l : ListenerConfig}
  {err : AppError}

/-- The upstream starts with `https://` and is read. -/
def UpstreamOk (H : HttpCrate) (upstream : Str) : Prop :=
  List.IsPrefix httpsPrefix upstream ∧ (H.parseUri upstream).isSome = true

/-- **Listener `i` offends**: its bind occurs before it, or its upstream fails. -/
def Offends (H : HttpCrate) (ls : List ListenerConfig) (i : ℕ) : Prop :=
  ∃ l, ls[i]? = some l ∧ (l.bind ∈ (ls.take i).map (·.bind) ∨ ¬ UpstreamOk H l.upstream)

/-- **The error for a listener**, whose bind is repeated or not. -/
inductive Blames (H : HttpCrate) (uriError : Str → Str) (repeated : Prop) (l : ListenerConfig) :
    AppError → Prop
  | duplicate (h : repeated) : Blames H uriError repeated l (.configValidationError
      ("duplicate listener bind address: ".toList ++ l.bind.display))
  | notHttps (hnew : ¬ repeated) (h : ¬ List.IsPrefix httpsPrefix l.upstream) :
      Blames H uriError repeated l (.configValidationError
        ("listener upstream must start with https://: ".toList ++ l.upstream))
  | invalid (hnew : ¬ repeated) (hpre : List.IsPrefix httpsPrefix l.upstream)
      (h : H.parseUri l.upstream = none) : Blames H uriError repeated l (.configValidationError
        ("invalid upstream URL '".toList ++ l.upstream ++ "': ".toList ++ uriError l.upstream))

/-- The error for a URL without authority. -/
def missingAuthority (l : ListenerConfig) : AppError := .configValidationError
  ("invalid upstream URL '".toList ++ l.upstream ++ "': missing authority".toList)

/-- The error for a URL with another scheme. -/
def wrongScheme (l : ListenerConfig) : AppError :=
  .configValidationError ("listener upstream must use https scheme: ".toList ++ l.upstream)

/-- A blamed listener offends. -/
theorem Blames.offends {repeated : Prop} (h : Blames H uriError repeated l err) :
    repeated ∨ ¬ UpstreamOk H l.upstream := by
  cases h with
  | duplicate h => exact Or.inl h
  | notHttps _ h => exact Or.inr fun hok => h hok.1
  | invalid _ _ h =>
    refine Or.inr fun hok => ?_
    have hsome := hok.2
    rw [h] at hsome
    cases hsome

/-! ## One listener -/

/-- **A listener is accepted or blamed**: what starts with `https://` and is read has an
authority and the scheme `https`. -/
theorem validateFrom_cons (hH : H.Documented) (seen : List SocketAddr) (l : ListenerConfig) :
    (l.bind ∉ seen ∧ UpstreamOk H l.upstream ∧ ∀ rest,
      validateFrom H uriError seen (l :: rest) = validateFrom H uriError (l.bind :: seen) rest) ∨
    ∃ err, Blames H uriError (l.bind ∈ seen) l err ∧
      ∀ rest, validateFrom H uriError seen (l :: rest) = .error err := by
  simp only [validateFrom]
  by_cases hseen : l.bind ∈ seen
  · exact Or.inr ⟨_, .duplicate hseen, fun _ => if_pos hseen⟩
  simp only [if_neg hseen]
  by_cases hpre : List.IsPrefix httpsPrefix l.upstream
  · have hpre' : httpsPrefix.isPrefixOf l.upstream = true := List.isPrefixOf_iff_prefix.2 hpre
    simp only [hpre', Bool.not_true, if_neg Bool.false_ne_true]
    cases hparse : H.parseUri l.upstream with
    | none => exact Or.inr ⟨_, .invalid hseen hpre hparse, fun _ => rfl⟩
    | some uri =>
      obtain ⟨rest', hrest⟩ := hpre
      have hread := hparse
      rw [← hrest] at hread
      obtain ⟨a, p, -, -, rfl⟩ := parseUri_https_parts hH hread
      refine Or.inl ⟨hseen, ⟨⟨rest', hrest⟩, by rw [hparse]; rfl⟩, fun rest => ?_⟩
      have hscheme : ¬ (some https ≠ some https) := fun h => h rfl
      exact (if_neg Bool.false_ne_true).trans (if_neg hscheme)
  · have hpre' : httpsPrefix.isPrefixOf l.upstream = false := by
      rw [Bool.eq_false_iff]
      exact fun h => hpre (List.isPrefixOf_iff_prefix.1 h)
    simp only [hpre', Bool.not_false, if_true]
    exact Or.inr ⟨_, .notHttps hseen hpre, fun _ => rfl⟩

/-! ## The loop -/

/-- **The lists that the loop accepts**, after it has seen some binds. -/
theorem validateFrom_ok (hH : H.Documented) (seen : List SocketAddr) :
    validateFrom H uriError seen ls = .ok () ↔
      (∀ l ∈ ls, l.bind ∉ seen) ∧ (ls.map (·.bind)).Nodup ∧ ∀ l ∈ ls, UpstreamOk H l.upstream := by
  induction ls generalizing seen with
  | nil => simp [validateFrom]
  | cons l ls ih =>
    rcases validateFrom_cons hH seen l with ⟨hnew, hok, hrest⟩ | ⟨err, hblame, herr⟩
    · rw [hrest, ih (l.bind :: seen), List.map_cons, List.nodup_cons]
      simp only [List.mem_cons, forall_eq_or_imp, not_or, hnew, hok, not_false_eq_true, true_and,
        List.mem_map, not_exists, not_and]
      constructor
      · rintro ⟨hseen, hnodup, hall⟩
        exact ⟨fun x hx => (hseen x hx).2, ⟨fun x hx => (hseen x hx).1, hnodup⟩, hall⟩
      · rintro ⟨hseen, ⟨hne, hnodup⟩, hall⟩
        exact ⟨fun x hx => ⟨hne x hx, hseen x hx⟩, hnodup, hall⟩
    · rw [herr]
      refine iff_of_false (by simp) ?_
      rintro ⟨hseen, -, hall⟩
      rcases hblame.offends with h | h
      · exact hseen l List.mem_cons_self h
      · exact h (hall l List.mem_cons_self)

/-- **Where the loop stops**: the listeners before are accepted, and the one is blamed. -/
theorem validateFrom_error (hH : H.Documented) (seen : List SocketAddr)
    (h : validateFrom H uriError seen ls = .error err) : ∃ before l after, ls = before ++ l :: after ∧
      validateFrom H uriError seen before = .ok () ∧
      Blames H uriError (l.bind ∈ before.map (·.bind) ∨ l.bind ∈ seen) l err := by
  induction ls generalizing seen with
  | nil => cases h
  | cons x ls ih =>
    rcases validateFrom_cons hH seen x with ⟨hnew, hok, hrest⟩ | ⟨e, hblame, he⟩
    · rw [hrest] at h
      obtain ⟨before, l, after, rfl, hbefore, hblame⟩ := ih (x.bind :: seen) h
      refine ⟨x :: before, l, after, rfl, ?_, ?_⟩
      · rw [hrest]
        exact hbefore
      · have hmem : (l.bind ∈ before.map (·.bind) ∨ l.bind ∈ x.bind :: seen) =
            (l.bind ∈ (x :: before).map (·.bind) ∨ l.bind ∈ seen) := by
          simp only [List.map_cons, List.mem_cons, eq_iff_iff]
          tauto
        rw [← hmem]
        exact hblame
    · rw [he, Except.error.injEq] at h
      refine ⟨[], x, ls, rfl, rfl, ?_⟩
      rw [← h]
      simpa using hblame

/-! ## The whole list -/

/-- **The accepted lists.** -/
theorem validateListeners_ok (hH : H.Documented) : validateListeners H uriError ls = .ok () ↔
    (ls.map (·.bind)).Nodup ∧ ∀ l ∈ ls, UpstreamOk H l.upstream := by
  unfold validateListeners
  rw [validateFrom_ok hH]
  exact and_iff_right fun _ _ => List.not_mem_nil

/-- A list is accepted if no listener offends. -/
theorem not_offends (hnodup : (ls.map (·.bind)).Nodup) (hok : ∀ l ∈ ls, UpstreamOk H l.upstream)
    (i : ℕ) : ¬ Offends H ls i := by
  rintro ⟨l, hl, hmem | hup⟩
  · have hne : ∀ idx a, (ls.map (·.bind))[idx]? = some a → ∀ b ∈ (ls.map (·.bind)).take idx, b ≠ a :=
      pairwise_iff_take.1 hnodup
    have hbind : (ls.map (·.bind))[i]? = some l.bind := by rw [List.getElem?_map, hl, Option.map_some]
    rw [List.map_take] at hmem
    exact hne i l.bind hbind l.bind hmem rfl
  · exact hup (hok l (List.mem_of_getElem? hl))

/-- What offends is decided by the listeners up to it. -/
theorem offends_append {before after : List ListenerConfig} {i : ℕ} (hi : i < before.length)
    (h : Offends H (before ++ after) i) : Offends H before i := by
  obtain ⟨x, hx, hbad⟩ := h
  rw [List.getElem?_append_left hi] at hx
  rw [List.take_append_of_le_length hi.le] at hbad
  exact ⟨x, hx, hbad⟩

/-- Texts that differ in their first characters. -/
theorem append_ne {s t x y : Str} (n : ℕ) (hs : n ≤ s.length) (ht : n ≤ t.length)
    (h : s.take n ≠ t.take n) : s ++ x ≠ t ++ y := by
  intro he
  have htake := congrArg (List.take n) he
  rw [List.take_append_of_le_length hs, List.take_append_of_le_length ht] at htake
  exact h htake

theorem Blames.ne_wrongScheme {repeated : Prop} (h : Blames H uriError repeated l err)
    (l' : ListenerConfig) : err ≠ wrongScheme l' := by
  intro he
  rw [he] at h
  generalize hm : wrongScheme l' = e at h
  unfold wrongScheme at hm
  cases h with
  | duplicate => exact append_ne 1 (by decide) (by decide) (by decide) (AppError.configValidationError.inj hm)
  | notHttps => exact append_ne 25 (by decide) (by decide) (by decide) (AppError.configValidationError.inj hm)
  | invalid =>
    have htext := AppError.configValidationError.inj hm
    rw [List.append_assoc, List.append_assoc] at htext
    exact append_ne 1 (by decide) (by decide) (by decide) htext

/-- The parser's own texts tell its errors from a missing authority. -/
theorem Blames.ne_missingAuthority {repeated : Prop} (h : Blames H uriError repeated l err)
    (htexts : uriError l.upstream ≠ "missing authority".toList) : err ≠ missingAuthority l := by
  intro he
  rw [he] at h
  generalize hm : missingAuthority l = e at h
  unfold missingAuthority at hm
  cases h with
  | duplicate =>
    have htext := AppError.configValidationError.inj hm
    rw [List.append_assoc] at htext
    exact append_ne 1 (by decide) (by decide) (by decide) htext
  | notHttps =>
    have htext := AppError.configValidationError.inj hm
    rw [List.append_assoc] at htext
    exact append_ne 1 (by decide) (by decide) (by decide) htext
  | invalid =>
    have htext := AppError.configValidationError.inj hm
    have hcut : "': missing authority".toList = "': ".toList ++ "missing authority".toList := by decide
    rw [hcut, ← List.append_assoc] at htext
    exact htexts (List.append_cancel_left htext).symm

/-- **`validate_listeners` accepts exactly the right lists, and blames the first
offender**, with the error about its bind if that is repeated; the errors for a missing
authority and a wrong scheme are never returned. -/
theorem validateListeners_spec (hH : H.Documented) (ls : List ListenerConfig) :
    (validateListeners H uriError ls = .ok () ↔
      (ls.map (·.bind)).Nodup ∧ ∀ l ∈ ls, UpstreamOk H l.upstream) ∧
    ∀ err, validateListeners H uriError ls = .error err → ∃ i l, ls[i]? = some l ∧
      Offends H ls i ∧ (∀ j < i, ¬ Offends H ls j) ∧
      Blames H uriError (l.bind ∈ (ls.take i).map (·.bind)) l err ∧ (∀ l', err ≠ wrongScheme l') ∧
      (uriError l.upstream ≠ "missing authority".toList → err ≠ missingAuthority l) := by
  refine ⟨validateListeners_ok hH, ?_⟩
  intro err h
  obtain ⟨before, l, after, rfl, hbefore, hblame⟩ := validateFrom_error hH [] h
  have hat : (before ++ l :: after)[before.length]? = some l := by
    rw [List.getElem?_append_right le_rfl, Nat.sub_self]
    rfl
  have htake : (before ++ l :: after).take before.length = before := List.take_left
  have hrepeated : (l.bind ∈ before.map (·.bind) ∨ l.bind ∈ ([] : List SocketAddr)) =
      (l.bind ∈ before.map (·.bind)) := by simp
  rw [hrepeated] at hblame
  obtain ⟨-, hnodup, hok⟩ := (validateFrom_ok hH []).1 hbefore
  refine ⟨before.length, l, hat, ⟨l, hat, ?_⟩, ?_, ?_, hblame.ne_wrongScheme, hblame.ne_missingAuthority⟩
  · rw [htake]
    exact hblame.offends
  · intro j hj hoff
    exact not_offends hnodup hok j (offends_append hj hoff)
  · rw [htake]
    exact hblame

/-- Two listeners with one bind: the second is blamed. -/
def sameBind : List ListenerConfig :=
  [⟨.v4 0x7f000001 8080, "https://a.com".toList⟩, ⟨.v4 0x7f000001 8080, "https://b.com".toList⟩]

theorem validateListeners_spec_sameBind : ∃ i l, sameBind[i]? = some l ∧
    Offends httpCrate sameBind i ∧ (∀ j < i, ¬ Offends httpCrate sameBind j) ∧
    Blames httpCrate (fun _ => []) (l.bind ∈ (sameBind.take i).map (·.bind)) l
      (.configValidationError "duplicate listener bind address: 127.0.0.1:8080".toList) := by
  have herr : validateListeners httpCrate (fun _ => []) sameBind = .error
      (.configValidationError "duplicate listener bind address: 127.0.0.1:8080".toList) := by
    decide +kernel
  obtain ⟨i, l, hl, hoff, hfirst, hblame, -⟩ :=
    (validateListeners_spec httpCrate_documented sameBind).2 _ herr
  exact ⟨i, l, hl, hoff, hfirst, hblame⟩

end Retrotls.ConfigRs
