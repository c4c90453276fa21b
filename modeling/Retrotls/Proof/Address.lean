import Retrotls.Spec.ProxyRs

/-!
# The text of an address

* `ipText_chars`: an IP address is printed with digits, dots and colons.
* `display_visible`: a socket address is printed as a header value can hold it.
-/

namespace Retrotls

namespace SocketAddr

/-- The characters of an IP address. -/
def isAddrChar (c : Char) : Bool :=
  c.isDigit || (0x61 ≤ c.toNat && c.toNat ≤ 0x66) || c = '.' || c = ':'

theorem isAddrChar_hex (n : ℕ) : ∀ c ∈ Nat.toDigits 16 n, isAddrChar c = true := by
  induction n using Nat.strong_induction_on with
  | _ n ih =>
    have hlast : ∀ d < 16, isAddrChar d.digitChar = true := by decide
    intro c hc
    rw [Nat.toDigits_eq_if (by decide)] at hc
    split at hc
    · rename_i hn
      rw [List.mem_singleton] at hc
      exact hc ▸ hlast n hn
    · rcases List.mem_append.1 hc with hinit | hc
      · exact ih (n / 16) (by omega) c hinit
      · rw [List.mem_singleton] at hc
        exact hc ▸ hlast (n % 16) (by omega)

theorem isAddrChar_decimal {n : ℕ} {c : Char} (h : c ∈ decimal n) : isAddrChar c = true := by
  simp [isAddrChar, isDigit_of_mem_decimal h]

/-- Texts with separators between them. -/
theorem isAddrChar_intercalate {sep : Char} (hsep : isAddrChar sep = true) {ls : List Str}
    (h : ∀ l ∈ ls, ∀ c ∈ l, isAddrChar c = true) :
    ∀ c ∈ [sep].intercalate ls, isAddrChar c = true := by
  induction ls with
  | nil => simp
  | cons l ls ih =>
    have htail := ih fun x hx => h x (List.mem_cons_of_mem l hx)
    cases ls with
    | nil =>
      rw [List.intercalate_singleton]
      exact h l List.mem_cons_self
    | cons l' ls =>
      intro c hc
      rw [List.intercalate_cons_cons, List.mem_append, List.mem_append, List.mem_singleton] at hc
      rcases hc with (hc | rfl) | hc
      · exact h l List.mem_cons_self c hc
      · exact hsep
      · exact htail c hc

theorem ipv4Text_chars (ip : ℕ) : ∀ c ∈ ipv4Text ip, isAddrChar c = true := by
  refine isAddrChar_intercalate (by decide) fun l hl c hc => ?_
  obtain ⟨shift, -, rfl⟩ := List.mem_map.1 hl
  exact isAddrChar_decimal hc

theorem segmentsText_chars (segs : List ℕ) : ∀ c ∈ segmentsText segs, isAddrChar c = true := by
  refine isAddrChar_intercalate (by decide) fun l hl c hc => ?_
  obtain ⟨n, -, rfl⟩ := List.mem_map.1 hl
  exact isAddrChar_hex n c hc

theorem ipv6Text_chars (ip : ℕ) : ∀ c ∈ ipv6Text ip, isAddrChar c = true := by
  have hmapped : ∀ c ∈ "::ffff:".toList, isAddrChar c = true := List.all_eq_true.1 (by decide)
  have hgap : ∀ c ∈ "::".toList, isAddrChar c = true := List.all_eq_true.1 (by decide)
  unfold ipv6Text
  split
  · exact List.forall_mem_append.2 ⟨hmapped, ipv4Text_chars _⟩
  · simp only
    split
    · refine List.forall_mem_append.2 ⟨?_, segmentsText_chars _⟩
      exact List.forall_mem_append.2 ⟨segmentsText_chars _, hgap⟩
    · exact segmentsText_chars _

/-- **An IP address has digits, dots and colons only.** -/
theorem ipText_chars (addr : SocketAddr) : ∀ c ∈ addr.ipText, isAddrChar c = true := by
  cases addr with
  | v4 ip port => exact ipv4Text_chars ip.toNat
  | v6 ip port flowinfo scopeId => exact ipv6Text_chars ip.toNat

theorem intercalate_ne_nil {sep : Char} {l l' : Str} {ls : List Str} :
    [sep].intercalate (l :: l' :: ls) ≠ [] := by
  rw [List.intercalate_cons_cons]
  simp

theorem ipText_ne_nil (addr : SocketAddr) : addr.ipText ≠ [] := by
  cases addr with
  | v4 ip port => exact intercalate_ne_nil
  | v6 ip port flowinfo scopeId =>
    change ipv6Text ip.toNat ≠ []
    unfold ipv6Text
    split
    · exact List.cons_ne_nil _ _
    · simp only
      split
      · simp
      · exact intercalate_ne_nil

theorem isAddrChar_bounds {c : Char} (h : isAddrChar c = true) : 46 ≤ c.toNat ∧ c.toNat ≤ 102 := by
  simp only [isAddrChar, Char.isDigit, Bool.or_eq_true, Bool.and_eq_true, decide_eq_true_eq] at h
  rcases h with ((hdigit | hletter) | rfl) | rfl
  · have h48 : 48 ≤ c.toNat := hdigit.1
    have h57 : c.toNat ≤ 57 := hdigit.2
    omega
  · omega
  · decide
  · decide

theorem isVisible_of_isAddrChar {c : Char} (h : isAddrChar c = true) : isVisible c.toNat = true := by
  have hb := isAddrChar_bounds h
  simp only [isVisible, Bool.or_eq_true, Bool.and_eq_true, decide_eq_true_eq]
  omega

/-- **A socket address is a header value.** -/
theorem display_visible (addr : SocketAddr) : ∀ c ∈ addr.display, isVisible c.toNat = true := by
  have hip : ∀ c ∈ addr.ipText, isVisible c.toNat = true := fun c hc =>
    isVisible_of_isAddrChar (ipText_chars addr c hc)
  have hdecimal : ∀ n, ∀ c ∈ decimal n, isVisible c.toNat = true := fun n c hc =>
    isVisible_of_isAddrChar (isAddrChar_decimal hc)
  have hclose : ∀ c ∈ "]:".toList, isVisible c.toNat = true := List.all_eq_true.1 (by decide)
  cases addr with
  | v4 ip port =>
    exact List.forall_mem_append.2 ⟨hip, List.forall_mem_cons.2 ⟨by decide, hdecimal _⟩⟩
  | v6 ip port flowinfo scopeId =>
    have hscope : ∀ c ∈ if scopeId = 0 then [] else '%' :: decimal scopeId.toNat,
        isVisible c.toNat = true := by
      split
      · exact fun c hc => absurd hc List.not_mem_nil
      · exact List.forall_mem_cons.2 ⟨by decide, hdecimal _⟩
    refine List.forall_mem_append.2 ⟨List.forall_mem_append.2 ⟨?_, hclose⟩, hdecimal _⟩
    exact List.forall_mem_append.2 ⟨List.forall_mem_cons.2 ⟨by decide, hip⟩, hscope⟩

end SocketAddr

end Retrotls
