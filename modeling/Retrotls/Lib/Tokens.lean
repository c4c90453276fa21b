import Mathlib.Data.List.DropRight
import Mathlib.Tactic.Common

/-!
# Lists with separators

`tokens sep blank l` are the elements of a list that is written with separators: what
stands between them, without the blanks around it, where something is left.

* `flatten_splitOn`: the pieces have what is not a separator, in order.
* `tokens_append`: **the elements of two lists** that a separator joins.
* `tokens_eq_nil`: a list without elements has separators and blanks only.
-/

namespace Retrotls

variable {α : Type*} {blank : α → Bool}

/-- Drops the blanks at both ends. -/
def trimBoth (blank : α → Bool) (l : List α) : List α := (l.dropWhile blank).rdropWhile blank

/-- There is nothing to drop. -/
theorem trimBoth_of_forall {l : List α} (h : ∀ x ∈ l, blank x = false) : trimBoth blank l = l := by
  have hd : l.dropWhile blank = l := by
    cases l with
    | nil => rfl
    | cons x l => rw [List.dropWhile_cons_of_neg (by simp [h x List.mem_cons_self])]
  rw [trimBoth, hd, List.rdropWhile_eq_self_iff]
  intro hl
  simp [h _ (List.getLast_mem hl)]

theorem trimBoth_cons {x : α} (hx : blank x = true) (l : List α) :
    trimBoth blank (x :: l) = trimBoth blank l := by
  rw [trimBoth, List.dropWhile_cons_of_pos hx, trimBoth]

/-- Nothing is left of blanks. -/
theorem trimBoth_eq_nil {l : List α} : trimBoth blank l = [] ↔ ∀ x ∈ l, blank x = true := by
  rw [trimBoth, List.rdropWhile_eq_nil_iff]
  constructor
  · intro h
    refine List.dropWhile_eq_nil_iff.1 ?_
    cases hd : l.dropWhile blank with
    | nil => rfl
    | cons x t =>
      -- the first element that is kept is no blank
      have hx : blank x = true := h x (hd ▸ List.mem_cons_self)
      have hnot := List.head?_dropWhile_not blank l
      rw [hd] at hnot
      exact absurd hx (by simpa using hnot)
  · intro h x hx
    exact h x ((List.dropWhile_suffix blank).subset hx)

/-- What is no separator, and in no piece. -/
theorem not_mem_intercalate {sep x : α} {ls : List (List α)} (hx : x ≠ sep) (h : ∀ l ∈ ls, x ∉ l) :
    x ∉ [sep].intercalate ls := by
  induction ls with
  | nil => simp
  | cons l ls ih =>
    have hl : x ∉ l := h l List.mem_cons_self
    have htail := ih fun l' hl' => h l' (List.mem_cons_of_mem l hl')
    cases ls with
    | nil =>
      rw [List.intercalate_singleton]
      exact hl
    | cons l' ls =>
      rw [List.intercalate_cons_cons]
      simp only [List.mem_append, List.mem_singleton, not_or]
      exact ⟨⟨hl, hx⟩, htail⟩

variable [DecidableEq α] {sep : α}

/-- The pieces have what is not a separator. -/
theorem flatten_splitOn (l : List α) : (l.splitOn sep).flatten = l.filter fun x => x ≠ sep := by
  induction l with
  | nil => rfl
  | cons x l ih =>
    rw [List.splitOn_cons_eq_if_modifyHead]
    by_cases hx : x = sep
    · simp [hx, ih]
    · obtain ⟨p, ps, hps⟩ := List.exists_cons_of_ne_nil (List.splitOn_ne_nil sep l)
      rw [hps, List.flatten_cons] at ih
      simp [hx, hps, ih]

/-- A piece has no separator. -/
theorem not_mem_of_mem_splitOn {l t : List α} (h : t ∈ l.splitOn sep) : sep ∉ t := by
  induction l generalizing t with
  | nil =>
    rw [List.splitOn_nil, List.mem_singleton] at h
    rw [h]
    exact List.not_mem_nil
  | cons x l ih =>
    rw [List.splitOn_cons_eq_if_modifyHead] at h
    by_cases hx : x = sep
    · simp only [hx, beq_self_eq_true, if_true, List.mem_cons] at h
      rcases h with rfl | h
      · exact List.not_mem_nil
      · exact ih h
    · obtain ⟨p, ps, hps⟩ := List.exists_cons_of_ne_nil (List.splitOn_ne_nil sep l)
      simp only [beq_iff_eq, hx, if_false, hps, List.modifyHead_cons, List.mem_cons] at h
      rcases h with rfl | h
      · have hp : sep ∉ p := ih (hps ▸ List.mem_cons_self)
        exact List.not_mem_cons_of_ne_of_not_mem (Ne.symm hx) hp
      · exact ih (hps ▸ List.mem_cons_of_mem p h)

/-- **When pieces are read back**: when none has the separator. -/
theorem splitOn_intercalate_iff {ls : List (List α)} (hne : ls ≠ []) :
    ([sep].intercalate ls).splitOn sep = ls ↔ ∀ l ∈ ls, sep ∉ l := by
  constructor
  · intro h l hl
    rw [← h] at hl
    exact not_mem_of_mem_splitOn hl
  · exact fun h => List.splitOn_intercalate sep h hne

/-- The elements between the separators. -/
def tokens (sep : α) (blank : α → Bool) (l : List α) : List (List α) :=
  ((l.splitOn sep).map (trimBoth blank)).filter fun t => t ≠ []

/-- **A separator joins two lists.** -/
theorem tokens_append (l r : List α) :
    tokens sep blank (l ++ sep :: r) = tokens sep blank l ++ tokens sep blank r := by
  unfold tokens
  rw [List.splitOn_append_cons_self, List.map_append, List.filter_append]

/-- A blank in front changes nothing. -/
theorem tokens_cons {x : α} (hx : blank x = true) (hsep : x ≠ sep) (l : List α) :
    tokens sep blank (x :: l) = tokens sep blank l := by
  obtain ⟨p, ps, hps⟩ := List.exists_cons_of_ne_nil (List.splitOn_ne_nil sep l)
  have hsplit : (x :: l).splitOn sep = (x :: p) :: ps := by
    rw [List.splitOn_cons_eq_if_modifyHead, hps]
    simp [hsep]
  unfold tokens
  rw [hsplit, hps, List.map_cons, List.map_cons, trimBoth_cons hx]

/-- One element. -/
theorem tokens_singleton {l : List α} (hl : l ≠ []) (hsep : sep ∉ l)
    (h : ∀ x ∈ l, blank x = false) : tokens sep blank l = [l] := by
  unfold tokens
  rw [List.splitOn_eq_singleton hsep]
  simp [trimBoth_of_forall h, hl]

/-- **No elements**: separators and blanks only. -/
theorem tokens_eq_nil {l : List α} :
    tokens sep blank l = [] ↔ ∀ x ∈ l, x ≠ sep → blank x = true := by
  have hall : tokens sep blank l = [] ↔ ∀ p ∈ l.splitOn sep, ∀ x ∈ p, blank x = true := by
    simp only [tokens, List.filter_eq_nil_iff, List.forall_mem_map, decide_eq_true_eq, not_not,
      trimBoth_eq_nil]
  have hflat : (∀ p ∈ l.splitOn sep, ∀ x ∈ p, blank x = true) ↔
      ∀ x ∈ (l.splitOn sep).flatten, blank x = true := by
    simp only [List.mem_flatten]
    exact ⟨fun h x ⟨p, hp, hx⟩ => h p hp x hx, fun h p hp x hx => h x ⟨p, hp, hx⟩⟩
  rw [hall, hflat, flatten_splitOn]
  simp

end Retrotls
