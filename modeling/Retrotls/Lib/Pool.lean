import Mathlib.Data.List.Nodup
import Mathlib.Tactic.Common

/-!
# Pools of tasks

A pool is the list of its tasks' states; tasks are told apart by their position. In
`move f i pool` the task `i` takes the step `f`, if it can.

* `move_some`: what a move does.
* `countP_move`: **how a count of the tasks changes with a move.**
* `past_append`, `past_set`: a log of the tasks that are past a point, when tasks are added and
  when one takes a step.
* `length_filter_not_mem`: how much of a log another log has not.
* `pairwise_iff_take`: earlier and later elements, by position.
-/

namespace Retrotls

variable {α : Type*}

/-- Task `i` takes the step `f`. -/
def move (f : α → Option α) (i : ℕ) (pool : List α) : Option (List α) :=
  pool[i]?.bind fun x => (f x).map fun y => pool.set i y

variable {f : α → Option α} {i : ℕ} {pool pool' : List α}

theorem move_some : move f i pool = some pool' ↔
    ∃ x y, pool[i]? = some x ∧ f x = some y ∧ pool' = pool.set i y := by
  unfold move
  constructor
  · intro h
    obtain ⟨x, hx, h⟩ := Option.bind_eq_some_iff.1 h
    obtain ⟨y, hy, rfl⟩ := Option.map_eq_some_iff.1 h
    exact ⟨x, y, hx, hy, rfl⟩
  · rintro ⟨x, y, hx, hy, rfl⟩
    rw [hx, Option.bind_some, hy, Option.map_some]

theorem length_move (h : move f i pool = some pool') : pool'.length = pool.length := by
  obtain ⟨x, y, -, -, rfl⟩ := move_some.1 h
  exact List.length_set

theorem countP_set (p : α → Bool) {x : α} (hx : pool[i]? = some x) (y : α) :
    (pool.set i y).countP p + (p x).toNat = pool.countP p + (p y).toNat := by
  induction pool generalizing i with
  | nil => cases hx
  | cons z pool ih =>
    cases i with
    | zero =>
      rw [List.getElem?_cons_zero, Option.some.injEq] at hx
      subst hx
      rw [List.set_cons_zero, List.countP_cons, List.countP_cons]
      cases p z <;> cases p y <;> simp
    | succ i =>
      rw [List.getElem?_cons_succ] at hx
      have hi := ih hx
      rw [List.set_cons_succ, List.countP_cons, List.countP_cons]
      omega

/-- **The count of a move**: the task counted before it, the task counted after it. -/
theorem countP_move (p : α → Bool) (h : move f i pool = some pool') :
    ∃ x y, pool[i]? = some x ∧ f x = some y ∧
      pool'.countP p + (p x).toNat = pool.countP p + (p y).toNat := by
  obtain ⟨x, y, hx, hy, rfl⟩ := move_some.1 h
  exact ⟨x, y, hx, hy, countP_set p hx y⟩

/-- A counted task makes the count positive. -/
theorem countP_pos_of_getElem? {p : α → Bool} {x : α} (hx : pool[i]? = some x) (hp : p x = true) :
    0 < pool.countP p := List.countP_pos_iff.2 ⟨x, List.mem_of_getElem? hx, hp⟩

/-- New tasks that are not past a point. -/
theorem past_append {p : α → Bool} {new : List α} (hnew : ∀ x ∈ new, p x = false) (j : ℕ) :
    (∃ x, (pool ++ new)[j]? = some x ∧ p x = true) ↔ ∃ x, pool[j]? = some x ∧ p x = true := by
  by_cases hj : j < pool.length
  · rw [List.getElem?_append_left hj]
  · have hnone : pool[j]? = none := List.getElem?_eq_none (by omega)
    rw [List.getElem?_append_right (by omega), hnone]
    constructor
    · rintro ⟨x, hx, hpx⟩
      have hnot : p x = false := hnew x (List.mem_of_getElem? hx)
      rw [hnot] at hpx
      cases hpx
    · rintro ⟨x, hx, -⟩
      cases hx

/-- **The log of the tasks that are past a point**, when a task takes a step: it is logged
when it passes, and then only. -/
theorem past_set {p : α → Bool} {log : List ℕ} {x y : α} {passes : Prop} [Decidable passes]
    (hlog : ∀ j, j ∈ log ↔ ∃ x, pool[j]? = some x ∧ p x = true) (hnodup : log.Nodup)
    (hx : pool[i]? = some x) (hy : p y = true ↔ p x = true ∨ passes) (hnew : passes → p x = false) :
    (∀ j, j ∈ log ++ (if passes then [i] else []) ↔
      ∃ z, (pool.set i y)[j]? = some z ∧ p z = true) ∧
    (log ++ if passes then [i] else []).Nodup := by
  have hi : i < pool.length := (List.getElem?_eq_some_iff.1 hx).1
  have hself : i ∈ log ↔ p x = true := by
    rw [hlog, hx]
    simp
  constructor
  · intro j
    rw [List.mem_append]
    by_cases hji : j = i
    · subst hji
      rw [List.getElem?_set_self hi, hself]
      by_cases hp : passes <;> simp [hp, hy]
    · rw [List.getElem?_set_ne (Ne.symm hji), hlog]
      by_cases hp : passes <;> simp [hp, hji]
  · by_cases hp : passes
    · have hnot : i ∉ log := by
        rw [hself, hnew hp]
        exact Bool.false_ne_true
      rw [if_pos hp, ← List.concat_eq_append]
      exact hnodup.concat hnot
    · rwa [if_neg hp, List.append_nil]

/-- What a list without duplicates has besides a part of it. -/
theorem length_filter_not_mem [DecidableEq α] {l r : List α} (hl : l.Nodup)
    (hr : r.Nodup) (hsub : ∀ x ∈ r, x ∈ l) :
    (l.filter fun x => x ∉ r).length + r.length = l.length := by
  have hperm : (l.filter fun x => x ∈ r).Perm r := by
    rw [List.perm_ext_iff_of_nodup (hl.filter _) hr]
    intro x
    rw [List.mem_filter, decide_eq_true_eq]
    exact ⟨fun h => h.2, fun h => ⟨hsub x h, h⟩⟩
  have hlen := List.length_eq_length_filter_add (l := l) fun x => decide (x ∈ r)
  have hnot : (l.filter fun x => !decide (x ∈ r)) = l.filter fun x => x ∉ r := by
    simp only [decide_not]
  rw [hperm.length_eq, hnot] at hlen
  omega

/-- **A relation of earlier to later elements**, by what comes before a position. -/
theorem pairwise_iff_take {R : α → α → Prop} {l : List α} :
    l.Pairwise R ↔ ∀ idx a, l[idx]? = some a → ∀ b ∈ l.take idx, R b a := by
  rw [List.pairwise_iff_getElem]
  constructor
  · intro h idx a ha b hb
    obtain ⟨hi, rfl⟩ := List.getElem?_eq_some_iff.1 ha
    obtain ⟨j, hj, rfl⟩ := List.mem_take_iff_getElem.1 hb
    exact h j idx (by omega) hi (by omega)
  · intro h i j hi hj hij
    have hmem : l[i] ∈ l.take j := List.mem_take_iff_getElem.2 ⟨i, by omega, rfl⟩
    exact h j l[j] (List.getElem?_eq_getElem hj) l[i] hmem

end Retrotls
