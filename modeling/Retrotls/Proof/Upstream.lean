import Retrotls.Proof.Uri
import Retrotls.Spec.Config

/-!
# What `parse_upstream` and `Config::validate` accept

* `parseUpstream_ok`: an accepted upstream is an `https` URI with an authority, and
  every field is read from that authority.
* `validate_ok`: an accepted configuration has listeners, and `parse_upstream` accepts
  each of their upstreams.
-/

namespace Retrotls

variable {H : HttpCrate} {raw : Str} {up : Upstream}

/-- **What `parse_upstream` returns.** -/
theorem parseUpstream_ok : parseUpstream H raw = .ok up ↔
    ∃ a, H.parseUri raw = some up.base ∧ up.base.scheme = some https ∧
      up.base.authority = some a ∧ up.authority = a.text ∧ up.host = H.host a ∧
      up.port = (H.portU16 a).getD 443 := by
  constructor
  · intro h
    unfold parseUpstream at h
    split at h
    · cases h
    · rename_i base hu
      split at h
      · cases h
      · rename_i hs
        push Not at hs
        split at h
        · cases h
        · rename_i a ha
          rw [Except.ok.injEq] at h
          subst h
          exact ⟨a, hu, hs, ha, rfl, rfl, rfl⟩
  · rintro ⟨a, hu, hs, ha, h1, h2, h3⟩
    obtain ⟨base, authority, host, port⟩ := up
    simp only at hu hs ha h1 h2 h3
    simp only [parseUpstream, hu, hs, ha, h1, h2, h3, ne_eq, not_true_eq_false, if_false]

theorem parseUpstream_holds (h : parseUpstream H raw = .ok up) : H.Holds up.base := by
  obtain ⟨a, hu, -⟩ := parseUpstream_ok.1 h
  exact Or.inl ⟨raw, hu⟩

/-- The authority of an upstream is that of the URI it is read from. -/
theorem parseUpstream_text (h : parseUpstream H raw = .ok up) {base : Uri} {a : Authority}
    (hbase : H.parseUri raw = some base) (ha : base.authority = some a) : up.authority = a.text := by
  obtain ⟨a', hu, -, ha', hat, -⟩ := parseUpstream_ok.1 h
  rw [hbase, Option.some.injEq] at hu
  rw [← hu, ha, Option.some.injEq] at ha'
  rw [ha', hat]

/-- The authority text of an upstream is accepted again. -/
theorem parseUpstream_authority (hH : H.Documented) (h : parseUpstream H raw = .ok up) :
    H.parseAuthority up.authority = some ⟨up.authority⟩ := by
  obtain ⟨a, -, -, ha, hat, -⟩ := parseUpstream_ok.1 h
  rw [hat]
  exact (parseUpstream_holds h).authority hH ha

theorem authority_graphic (hH : H.Documented) (h : parseUpstream H raw = .ok up) {c : Char}
    (hc : c ∈ up.authority) : isGraphic c = true ∧ inAuthority c = true :=
  (hH.authority_text _ _ (parseUpstream_authority hH h)).2.2 c hc

theorem validateFrom_ok {ls : List ListenerConfig} : ∀ idx, validateFrom H idx ls = .ok () ↔
    ∀ l ∈ ls, trim l.upstream ≠ [] ∧ ∃ up, parseUpstream H l.upstream = .ok up := by
  induction ls with
  | nil => intro idx; simp [validateFrom]
  | cons l ls ih =>
    intro idx
    unfold validateFrom
    by_cases ht : trim l.upstream = []
    · simp [ht]
    · cases hp : parseUpstream H l.upstream with
      | error err => simp [ht, hp]
      | ok up => simp [ht, hp, ih (idx + 1)]

/-- **What `Config::validate` accepts.** -/
theorem validate_ok {c : Config} : c.validate H = .ok () ↔ c.listeners ≠ [] ∧
    ∀ l ∈ c.listeners, trim l.upstream ≠ [] ∧ ∃ up, parseUpstream H l.upstream = .ok up := by
  unfold Config.validate
  by_cases hl : c.listeners = []
  · simp [hl]
  · simp only [hl, if_false, ne_eq, not_false_eq_true, true_and]
    exact validateFrom_ok 0

end Retrotls
