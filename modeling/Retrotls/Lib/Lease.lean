import Retrotls.Lib.Lts
import Mathlib.Logic.Function.Basic

/-!
# Taking over from an owner that is gone

Participants share a register that names the owner. A participant looks at the
register; if the owner that it names is gone, it is clear to become the owner.

A look is allowed here only while nobody else is between its look and its taking over,
and only if the register names every owner. Then there is at most one owner
(`Lease.unique`), and a participant that is clear finds none (`Lease.Inv.clear`).
-/

namespace Retrotls

namespace Lease

variable {ι : Type*} [DecidableEq ι]

/-- Where a participant is. -/
inductive Role (ι : Type*)
  | out
  /-- It has read that `k` is the owner. -/
  | looking (k : ι)
  | clear
  | owner

/-- Between the look and the taking over. -/
def Role.checks : Role ι → Prop
  | .looking _ => True
  | .clear => True
  | _ => False

inductive Act (ι : Type*)
  | look (p : ι) (k : Option ι)
  | pass (p : ι)
  | take (p : ι)
  | leave (p : ι)

/-- A look that reads `k`. -/
def Role.seen : Option ι → Role ι
  | none => .clear
  | some k => .looking k

/-- The register with the value `k` is looked at properly. -/
def MayLook (v : ι → Role ι) (k : Option ι) : Prop :=
  (∀ r, ¬ (v r).checks) ∧ ∀ r, v r = .owner → k = some r

open Classical in
/-- One step of one participant. -/
noncomputable def step (v : ι → Role ι) : Act ι → Option (ι → Role ι)
  | .look p k => if MayLook v k then some (Function.update v p (.seen k)) else none
  | .pass p =>
    if ∃ k, v p = .looking k ∧ v k ≠ .owner then some (Function.update v p .clear) else none
  | .take p => if v p = .clear then some (Function.update v p .owner) else none
  | .leave p => some (Function.update v p .out)

/-- **The invariant**: one owner, one check at a time, and checks that mean something. -/
structure Inv (v : ι → Role ι) : Prop where
  owner : ∀ p q, v p = .owner → v q = .owner → p = q
  checks : ∀ p q, (v p).checks → (v q).checks → p = q
  looking : ∀ p k q, v p = .looking k → v q = .owner → q = k
  clear : ∀ p q, v p = .clear → v q ≠ .owner

omit [DecidableEq ι] in
theorem inv_out : Inv (fun _ : ι => Role.out) where
  owner := fun _ _ h => by cases h
  checks := fun _ _ h => h.elim
  looking := fun _ _ _ h => by cases h
  clear := fun _ _ h => by cases h

variable {v v' : ι → Role ι}

/-- A role that the step does not give out was there before. -/
theorem of_update {p q : ι} {x y : Role ι} (h : Function.update v p x q = y) (hx : x ≠ y) :
    v q = y := by
  by_cases hqp : q = p
  · rw [hqp, Function.update_self] at h
    exact absurd h hx
  · rwa [Function.update_of_ne hqp] at h

theorem checks_of_update {p q : ι} {x : Role ι} (h : (Function.update v p x q).checks) :
    q = p ∨ (v q).checks := by
  by_cases hqp : q = p
  · exact Or.inl hqp
  · rw [Function.update_of_ne hqp] at h
    exact Or.inr h

theorem inv_leave (hv : Inv v) (p : ι) : Inv (Function.update v p .out) := by
  have hchk : ∀ q, (Function.update v p .out q).checks → (v q).checks := by
    intro q hq
    rcases checks_of_update hq with rfl | hq'
    · rw [Function.update_self] at hq
      exact hq.elim
    · exact hq'
  refine ⟨fun q r hq hr => ?_, fun q r hq hr => ?_, fun q k r hq hr => ?_, fun q r hq hr => ?_⟩
  · exact hv.owner q r (of_update hq (by simp)) (of_update hr (by simp))
  · exact hv.checks q r (hchk q hq) (hchk r hr)
  · exact hv.looking q k r (of_update hq (by simp)) (of_update hr (by simp))
  · exact hv.clear q r (of_update hq (by simp)) (of_update hr (by simp))

theorem inv_look (hv : Inv v) {p : ι} {k : Option ι} (hl : MayLook v k) :
    Inv (Function.update v p (.seen k)) := by
  obtain ⟨hno, hreg⟩ := hl
  have hk : Role.seen k ≠ .owner := by cases k <;> simp [Role.seen]
  have hself : ∀ q, (Function.update v p (.seen k) q).checks → q = p := by
    intro q hq
    exact (checks_of_update hq).resolve_right (hno q)
  refine ⟨fun q r hq hr => ?_, fun q r hq hr => ?_, fun q k' r hq hr => ?_, fun q r hq hr => ?_⟩
  · exact hv.owner q r (of_update hq hk) (of_update hr hk)
  · rw [hself q hq, hself r hr]
  · have hqp := hself q (by rw [hq]; trivial)
    rw [hqp, Function.update_self, hreg r (of_update hr hk)] at hq
    cases hq
    rfl
  · have hqp := hself q (by rw [hq]; trivial)
    rw [hqp, Function.update_self, hreg r (of_update hr hk)] at hq
    cases hq

theorem inv_pass (hv : Inv v) {p k : ι} (hp : v p = .looking k) (hk : v k ≠ .owner) :
    Inv (Function.update v p .clear) := by
  -- `p` is the one that checks, before the step and after it
  have hself : ∀ q, (Function.update v p .clear q).checks → q = p := by
    intro q hq
    rcases checks_of_update hq with hqp | hq'
    · exact hqp
    · exact hv.checks q p hq' (by rw [hp]; trivial)
  refine ⟨fun q r hq hr => ?_, fun q r hq hr => ?_, fun q k' r hq hr => ?_, fun q r hq hr => ?_⟩
  · exact hv.owner q r (of_update hq (by simp)) (of_update hr (by simp))
  · rw [hself q hq, hself r hr]
  · have hqp := hself q (by rw [hq]; trivial)
    rw [hqp, Function.update_self] at hq
    cases hq
  · -- the owner could only be `k`
    have hr' : v r = .owner := of_update hr (by simp)
    have hrk : r = k := hv.looking p k r hp hr'
    exact hk (hrk ▸ hr')

theorem inv_take (hv : Inv v) {p : ι} (hp : v p = .clear) : Inv (Function.update v p .owner) := by
  have hown : ∀ q, Function.update v p .owner q = .owner → q = p := by
    intro q hq
    by_contra hqp
    rw [Function.update_of_ne hqp] at hq
    exact hv.clear p q hp hq
  have hchk : ∀ q, ¬ (Function.update v p .owner q).checks := by
    intro q hq
    have hqp : q = p := by
      rcases checks_of_update hq with hqp | hq'
      · exact hqp
      · exact hv.checks q p hq' (by rw [hp]; trivial)
    rw [hqp, Function.update_self] at hq
    exact hq
  refine ⟨fun q r hq hr => ?_, fun q r hq => ?_, fun q k r hq => ?_, fun q r hq => ?_⟩
  · rw [hown q hq, hown r hr]
  · exact absurd hq (hchk q)
  · exact absurd (by rw [hq]; trivial) (hchk q)
  · exact absurd (by rw [hq]; trivial) (hchk q)

theorem step_inv {a : Act ι} (hv : Inv v) (h : step v a = some v') : Inv v' := by
  cases a with
  | look p k =>
    obtain ⟨hl, rfl⟩ := of_guard h
    exact inv_look hv hl
  | pass p =>
    obtain ⟨⟨k, hp, hk⟩, rfl⟩ := of_guard h
    exact inv_pass hv hp hk
  | take p =>
    obtain ⟨hp, rfl⟩ := of_guard h
    exact inv_take hv hp
  | leave p =>
    rw [step, Option.some.injEq] at h
    subst h
    exact inv_leave hv p

/-- **Every run keeps the invariant**; in particular there is one owner at most. -/
theorem exec_inv_out {as : List (Act ι)} (h : exec step (fun _ => Role.out) as = some v) : Inv v :=
  exec_inv_all (fun _ _ _ => step_inv) inv_out h

theorem unique {as : List (Act ι)} (h : exec step (fun _ => Role.out) as = some v) {p q : ι}
    (hp : v p = .owner) (hq : v q = .owner) : p = q := (exec_inv_out h).owner p q hp hq

end Lease

end Retrotls
