import Retrotls.Lib.Lts

/-!
# A gate that drains

Work enters while the gate is open and leaves at any time; once the gate is
closed and no work is left, this is reported.

* `Gate.done_clear`: **a report is right**, in every state after it.

-/

namespace Retrotls

structure Gate where
  isOpen : Bool
  work : ℕ
  done : Bool
  deriving DecidableEq

namespace Gate

inductive Act
  | enter
  | leave
  | close
  | report
  deriving DecidableEq

def init : Gate := ⟨true, 0, false⟩

def step (g : Gate) : Act → Option Gate
  | .enter => if g.isOpen then some { g with work := g.work + 1 } else none
  | .leave => if 0 < g.work then some { g with work := g.work - 1 } else none
  | .close => some { g with isOpen := false }
  | .report => if !g.isOpen ∧ g.work = 0 then some { g with done := true } else none

/-- After the report the gate is closed and no work is left. -/
def Inv (g : Gate) : Prop := g.done = true → g.isOpen = false ∧ g.work = 0

theorem step_inv {g g' : Gate} {a : Act} (hg : g.Inv) (h : step g a = some g') : g'.Inv := by
  intro hd
  cases a with
  | enter =>
    obtain ⟨ho, rfl⟩ := of_guard h
    have hc := (hg hd).1
    rw [ho] at hc
    cases hc
  | leave =>
    obtain ⟨hw, rfl⟩ := of_guard h
    have h0 := (hg hd).2
    omega
  | close =>
    rw [step, Option.some.injEq] at h
    subst h
    exact ⟨rfl, (hg hd).2⟩
  | report =>
    obtain ⟨⟨ho, hw⟩, rfl⟩ := of_guard h
    exact ⟨by simpa using ho, hw⟩

theorem done_clear {as : List Act} {g : Gate} (h : exec step init as = some g)
    (hd : g.done = true) : g.isOpen = false ∧ g.work = 0 :=
  exec_inv_all (I := Inv) (fun _ _ _ => step_inv) (fun h => by cases h) h hd

end Gate

end Retrotls
