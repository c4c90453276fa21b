import Mathlib.Data.List.Basic
import Mathlib.Tactic.Common

/-!
# Runs of a step function

A system is a partial step function `step : σ → α → Option σ`: the state an
action leads to, or `none` where the action is not enabled. A run is a list of
actions.

* `exec step s as`: the state after the actions `as` from `s`, if all are enabled.
* `visited step s as`: the states the run passes through, `s` first.
* `Along step ok s as`: every step of the run is taken in a state where `ok` holds.
* `exec_inv`: **the invariant rule**, for runs whose steps meet a side condition.
* `exec_sim`: **forward simulation** of one step function by another.
-/

namespace Retrotls

variable {σ τ α β : Type*}

/-- The state after a run, if every action is enabled when its turn comes. -/
def exec (step : σ → α → Option σ) : σ → List α → Option σ
  | s, [] => some s
  | s, a :: as => (step s a).bind fun s' => exec step s' as

/-- The states a run passes through, up to its first action that is not enabled. -/
def visited (step : σ → α → Option σ) : σ → List α → List σ
  | s, [] => [s]
  | s, a :: as => s :: ((step s a).map fun s' => visited step s' as).getD []

/-- Every step of the run is taken in a state, and with an action, that `ok` allows. -/
def Along (step : σ → α → Option σ) (ok : σ → α → Prop) : σ → List α → Prop
  | _, [] => True
  | s, a :: as => ok s a ∧ ∀ s', step s a = some s' → Along step ok s' as

/-- A guarded step that is taken: its guard holds. -/
theorem of_guard {c : Prop} {_ : Decidable c} {s t : σ} (h : (if c then some s else none) = some t) :
    c ∧ s = t := by
  obtain ⟨hc, hst⟩ := Option.ite_none_right_eq_some.1 h
  exact ⟨hc, Option.some.inj hst⟩

/-- A step with two guards. -/
theorem of_guards {c d : Prop} {_ : Decidable c} {_ : Decidable d} {s t u : σ}
    (h : (if c then some s else if d then some t else none) = some u) : c ∧ s = u ∨ d ∧ t = u := by
  by_cases hc : c
  · rw [if_pos hc] at h
    exact Or.inl ⟨hc, Option.some.inj h⟩
  · rw [if_neg hc] at h
    exact Or.inr (of_guard h)

section Runs

variable {step : σ → α → Option σ} {ok : σ → α → Prop}

@[simp] theorem exec_nil (s : σ) : exec step s [] = some s := rfl

theorem exec_cons {s t : σ} {a : α} {as : List α} :
    exec step s (a :: as) = some t ↔ ∃ s', step s a = some s' ∧ exec step s' as = some t := by
  simp only [exec, Option.bind_eq_some_iff]

theorem exec_append {s t : σ} {as bs : List α} :
    exec step s (as ++ bs) = some t ↔ ∃ s', exec step s as = some s' ∧ exec step s' bs = some t := by
  induction as generalizing s with
  | nil => simp
  | cons a as ih =>
    rw [List.cons_append, exec_cons]
    constructor
    · rintro ⟨s₁, h₁, h⟩
      obtain ⟨s', h₂, h₃⟩ := ih.1 h
      exact ⟨s', exec_cons.2 ⟨s₁, h₁, h₂⟩, h₃⟩
    · rintro ⟨s', h, h₃⟩
      obtain ⟨s₁, h₁, h₂⟩ := exec_cons.1 h
      exact ⟨s₁, h₁, ih.2 ⟨s', h₂, h₃⟩⟩

/-- A run of one step more. -/
theorem exec_concat {s t : σ} {a : α} {as : List α} :
    exec step s (as ++ [a]) = some t ↔ ∃ s', exec step s as = some s' ∧ step s' a = some t := by
  rw [exec_append]
  simp [exec_cons]

@[simp] theorem along_nil (s : σ) : Along step ok s [] := trivial

theorem along_cons {s s' : σ} {a : α} {as : List α} (h : step s a = some s') :
    Along step ok s (a :: as) ↔ ok s a ∧ Along step ok s' as := by
  simp only [Along, h, Option.some.injEq, forall_eq']

theorem along_append {s : σ} {as bs : List α} (ha : Along step ok s as)
    (hb : ∀ t, exec step s as = some t → Along step ok t bs) : Along step ok s (as ++ bs) := by
  induction as generalizing s with
  | nil => exact hb s rfl
  | cons a as ih =>
    refine ⟨ha.1, fun s' hs => ih (ha.2 s' hs) fun t ht => hb t ?_⟩
    exact exec_cons.2 ⟨s', hs, ht⟩

/-- The condition of a run can be checked by running it. -/
instance decidableAlong [∀ s a, Decidable (ok s a)] : ∀ s as, Decidable (Along step ok s as)
  | s, [] => isTrue (along_nil s)
  | s, a :: as =>
    match h : step s a with
    | none => decidable_of_iff (ok s a)
        ⟨fun ho => ⟨ho, fun s' hs => by rw [h] at hs; cases hs⟩, And.left⟩
    | some s' =>
      have := decidableAlong s' as
      decidable_of_iff (ok s a ∧ Along step ok s' as) (along_cons h).symm

/-- A run meets every condition that holds of all steps. -/
theorem along_of_forall (h : ∀ s a, ok s a) (s : σ) (as : List α) : Along step ok s as := by
  induction as generalizing s with
  | nil => exact along_nil s
  | cons a as ih => exact ⟨h s a, fun s' _ => ih s'⟩

/-- A weaker condition on the steps. -/
theorem Along.mono {ok' : σ → α → Prop} (h : ∀ s a, ok s a → ok' s a) {s : σ} {as : List α}
    (hr : Along step ok s as) : Along step ok' s as := by
  induction as generalizing s with
  | nil => exact along_nil s
  | cons a as ih => exact ⟨h _ _ hr.1, fun s' hs => ih (hr.2 s' hs)⟩

/-- **The invariant rule.** A property that every allowed step keeps holds after
every run of allowed steps. -/
theorem exec_inv {I : σ → Prop} (hstep : ∀ s a s', I s → ok s a → step s a = some s' → I s')
    {s t : σ} {as : List α} (hs : I s) (hr : Along step ok s as) (h : exec step s as = some t) :
    I t := by
  induction as generalizing s with
  | nil =>
    rw [exec_nil, Option.some.injEq] at h
    exact h ▸ hs
  | cons a as ih =>
    obtain ⟨s', h₁, h₂⟩ := exec_cons.1 h
    have hr' := (along_cons h₁).1 hr
    exact ih (hstep s a s' hs hr'.1 h₁) hr'.2 h₂

/-- The invariant rule for a property that every step keeps. -/
theorem exec_inv_all {I : σ → Prop} (hstep : ∀ s a s', I s → step s a = some s' → I s')
    {s t : σ} {as : List α} (hs : I s) (h : exec step s as = some t) : I t := by
  have hr : Along step (fun _ _ => True) s as := along_of_forall (fun _ _ => trivial) s as
  exact exec_inv (fun s a s' hI _ hst => hstep s a s' hI hst) hs hr h

theorem visited_cons {s s' : σ} {a : α} {as : List α} (h : step s a = some s') :
    visited step s (a :: as) = s :: visited step s' as := by
  simp only [visited, h, Option.map_some, Option.getD_some]

theorem self_mem_visited (s : σ) (as : List α) : s ∈ visited step s as := by
  cases as with
  | nil => exact List.mem_singleton_self s
  | cons a as => exact List.mem_cons_self

/-- The last state of a run is visited. -/
theorem exec_mem_visited {s t : σ} {as : List α} (h : exec step s as = some t) :
    t ∈ visited step s as := by
  induction as generalizing s with
  | nil =>
    rw [exec_nil, Option.some.injEq] at h
    exact h ▸ self_mem_visited s []
  | cons a as ih =>
    obtain ⟨s', h₁, h₂⟩ := exec_cons.1 h
    rw [visited_cons h₁]
    exact List.mem_cons_of_mem s (ih h₂)

/-- A visited state is the end of an initial part of the run. -/
theorem visited_prefix {s t : σ} {as : List α} (h : t ∈ visited step s as) :
    ∃ bs cs, as = bs ++ cs ∧ exec step s bs = some t := by
  induction as generalizing s with
  | nil =>
    rw [visited, List.mem_singleton] at h
    exact ⟨[], [], rfl, by rw [h]; rfl⟩
  | cons a as ih =>
    rw [visited, List.mem_cons] at h
    rcases h with rfl | h
    · exact ⟨[], a :: as, rfl, rfl⟩
    · cases hst : step s a with
      | none => simp [hst] at h
      | some s' =>
        rw [hst, Option.map_some, Option.getD_some] at h
        obtain ⟨bs, cs, rfl, hb⟩ := ih h
        exact ⟨a :: bs, cs, rfl, exec_cons.2 ⟨s', hst, hb⟩⟩

/-- An initial part of a run of allowed steps is one. -/
theorem Along.prefix {s : σ} {bs cs : List α} (h : Along step ok s (bs ++ cs)) :
    Along step ok s bs := by
  induction bs generalizing s with
  | nil => exact along_nil s
  | cons a bs ih => exact ⟨h.1, fun s' hs => ih (h.2 s' hs)⟩

/-- **Invariants hold in every visited state**, for runs of allowed steps. -/
theorem visited_inv {I : σ → Prop} (hstep : ∀ s a s', I s → ok s a → step s a = some s' → I s')
    {s t : σ} {as : List α} (hs : I s) (hr : Along step ok s as) (ht : t ∈ visited step s as) :
    I t := by
  obtain ⟨bs, cs, rfl, h⟩ := visited_prefix ht
  exact exec_inv hstep hs hr.prefix h

end Runs

/-- **Forward simulation.** Where every allowed step of `step` is matched by a run
of `step'` that restores the relation, every run of allowed steps is. -/
theorem exec_sim {step : σ → α → Option σ} {step' : τ → β → Option τ} {ok : σ → α → Prop}
    {R : σ → τ → Prop}
    (hstep : ∀ s a s' t, R s t → ok s a → step s a = some s' →
      ∃ bs t', exec step' t bs = some t' ∧ R s' t')
    {s s' : σ} {t : τ} {as : List α} (hR : R s t) (hr : Along step ok s as)
    (h : exec step s as = some s') : ∃ bs t', exec step' t bs = some t' ∧ R s' t' := by
  induction as generalizing s t with
  | nil =>
    rw [exec_nil, Option.some.injEq] at h
    exact ⟨[], t, rfl, h ▸ hR⟩
  | cons a as ih =>
    obtain ⟨s₁, h₁, h₂⟩ := exec_cons.1 h
    have hr' := (along_cons h₁).1 hr
    obtain ⟨bs, t₁, hb, hR₁⟩ := hstep s a s₁ t hR hr'.1 h₁
    obtain ⟨cs, t', hc, hR'⟩ := ih hR₁ hr'.2 h₂
    exact ⟨bs ++ cs, t', exec_append.2 ⟨t₁, hb, hc⟩, hR'⟩

end Retrotls
