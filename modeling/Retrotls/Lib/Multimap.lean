import Mathlib.Data.List.TakeWhile
import Mathlib.Tactic.Common

/-!
# Ordered multimaps

A map that keeps several values for a key, each key's values in the order they came.

* `getAll_filter`: the values that are left when keys are dropped.
* `copyUnless_eq`: **the copy loop** appends the entries whose keys are not skipped.
* `getAll_insert`, `getAll_insert_ne`: inserting leaves one value, and touches no other key.
-/

namespace Retrotls

/-- An ordered multimap, as its entries in order. -/
abbrev Multimap (κ ν : Type*) := List (κ × ν)

namespace Multimap

variable {κ ν : Type*}

/-- Adds a value to those of a key. -/
def append (m : Multimap κ ν) (k : κ) (v : ν) : Multimap κ ν := m ++ [(k, v)]

/-- Appends the entries of `src` to `dst`, one after the other, without the skipped keys. -/
def copyUnless (skip : κ → Bool) (dst : Multimap κ ν) : Multimap κ ν → Multimap κ ν
  | [] => dst
  | (k, v) :: src => copyUnless skip (if skip k then dst else append dst k v) src

/-- **The copy loop.** -/
theorem copyUnless_eq (skip : κ → Bool) (dst src : Multimap κ ν) :
    copyUnless skip dst src = dst ++ src.filter fun e => !skip e.1 := by
  induction src generalizing dst with
  | nil => rw [copyUnless, List.filter_nil, List.append_nil]
  | cons e src ih =>
    obtain ⟨k, v⟩ := e
    rw [copyUnless, ih]
    by_cases hk : skip k = true
    · simp [hk]
    · simp [hk, append]

variable [DecidableEq κ]

/-- The values of a key, in order. -/
def getAll (m : Multimap κ ν) (k : κ) : List ν := (m.filter fun e => e.1 = k).map Prod.snd

/-- The first value of a key. -/
def get (m : Multimap κ ν) (k : κ) : Option ν := (m.getAll k).head?

/-- Replaces the values of a key by one, at the place of the first. -/
def insert (m : Multimap κ ν) (k : κ) (v : ν) : Multimap κ ν :=
  m.takeWhile (fun e => e.1 ≠ k) ++ (k, v) :: (m.dropWhile fun e => e.1 ≠ k).filter fun e => e.1 ≠ k

/-- The map has a value for the key. -/
def containsKey (m : Multimap κ ν) (k : κ) : Bool := m.any fun e => e.1 = k

/-- Drops the values of a key. -/
def remove (m : Multimap κ ν) (k : κ) : Multimap κ ν := m.filter fun e => e.1 ≠ k

@[simp] theorem getAll_append (m n : Multimap κ ν) (k : κ) :
    Multimap.getAll (m ++ n) k = m.getAll k ++ n.getAll k := by
  simp [getAll]

theorem getAll_eq_nil {m : Multimap κ ν} {k : κ} (h : ∀ e ∈ m, e.1 ≠ k) : m.getAll k = [] := by
  simpa [getAll] using h

/-- The values of a key, when keys are dropped. -/
theorem getAll_filter (p : κ → Bool) (m : Multimap κ ν) (k : κ) :
    Multimap.getAll (m.filter fun e => p e.1) k = if p k then m.getAll k else [] := by
  unfold getAll
  rw [List.filter_filter]
  split
  · rename_i hk
    congr 1
    refine List.filter_congr fun e _ => ?_
    by_cases he : e.1 = k
    · simp [he, hk]
    · simp [he]
  · rename_i hk
    rw [List.map_eq_nil_iff, List.filter_eq_nil_iff]
    intro e _ he
    simp only [Bool.and_eq_true, decide_eq_true_eq] at he
    exact hk (he.1 ▸ he.2)

theorem containsKey_eq_false {m : Multimap κ ν} {k : κ} :
    m.containsKey k = false ↔ m.getAll k = [] := by
  simp [containsKey, getAll]

/-- Copying to an empty map keeps the values of the keys that are not skipped. -/
theorem getAll_copyUnless (skip : κ → Bool) (src : Multimap κ ν) (k : κ) :
    (copyUnless skip [] src).getAll k = if skip k then [] else src.getAll k := by
  rw [copyUnless_eq, List.nil_append, getAll_filter fun k => !skip k]
  cases skip k <;> rfl

/-- **Inserting leaves one value for the key.** -/
theorem getAll_insert (m : Multimap κ ν) (k : κ) (v : ν) : (m.insert k v).getAll k = [v] := by
  have h1 : Multimap.getAll (m.takeWhile fun e => e.1 ≠ k) k = [] :=
    getAll_eq_nil fun e he => by simpa using List.mem_takeWhile_imp he
  have h2 : Multimap.getAll ((m.dropWhile fun e => e.1 ≠ k).filter fun e => e.1 ≠ k) k = [] :=
    getAll_eq_nil fun e he => by simpa using (List.mem_filter.1 he).2
  have h3 : ∀ n : Multimap κ ν, Multimap.getAll ((k, v) :: n) k = v :: n.getAll k := fun n => by
    simp [getAll]
  rw [insert, getAll_append, h1, h3, h2, List.nil_append]

/-- Inserting touches no other key. -/
theorem getAll_insert_ne (m : Multimap κ ν) {k k' : κ} (h : k' ≠ k) (v : ν) :
    (m.insert k v).getAll k' = m.getAll k' := by
  have hrest : ∀ n : Multimap κ ν, Multimap.getAll (n.filter fun e => e.1 ≠ k) k' = n.getAll k' := by
    intro n
    have hn := getAll_filter (fun i => decide (i ≠ k)) n k'
    rwa [if_pos (decide_eq_true h)] at hn
  have hcons : ∀ n : Multimap κ ν, Multimap.getAll ((k, v) :: n) k' = n.getAll k' := by
    intro n
    simp [getAll, Ne.symm h]
  rw [insert, getAll_append, hcons, hrest, ← getAll_append, List.takeWhile_append_dropWhile]

/-- There is nothing to drop where there is no value. -/
theorem remove_of_get_none {m : Multimap κ ν} {k : κ} (h : m.get k = none) : m.remove k = m := by
  have hnil : (m.filter fun e => e.1 = k) = [] := by
    unfold get getAll at h
    rwa [List.head?_eq_none_iff, List.map_eq_nil_iff] at h
  refine List.filter_eq_self.2 fun e he => ?_
  simpa using List.filter_eq_nil_iff.1 hnil e he

end Multimap

end Retrotls
