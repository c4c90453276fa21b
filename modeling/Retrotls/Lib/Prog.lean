import Mathlib.Tactic.Common

/-!
# Programs that return, fail or exit

A program over a state `σ` ends with a value, with an error that its caller sees, or by
ending the process with a status, which no caller sees.

`Ends p s Q` says that `p`, from `s`, ends in `Q`, and `Keeps I p` that `p` keeps the
invariant `I`, however it ends. Their rules follow the syntax (`ends_bind`, `keeps_bind`
and so on), and `ends_bind_keeps` connects the two. `Respects R p` compares two runs of `p`,
from states in `R`.
-/

namespace Retrotls

/-- How a program ends. -/
inductive Outcome (ε α : Type)
  | ok (a : α)
  | err (e : ε)
  | exit (status : ℕ)
  deriving DecidableEq

def Outcome.mapErr {ε ε' α : Type} (g : ε → ε') : Outcome ε α → Outcome ε' α
  | .ok a => .ok a
  | .err e => .err (g e)
  | .exit n => .exit n

def Outcome.ignore {ε ε' : Type} : Outcome ε Unit → Outcome ε' Unit
  | .exit n => .exit n
  | _ => .ok ()

/-- A program. -/
def Prog (σ ε α : Type) : Type := σ → Outcome ε α × σ

namespace Prog

variable {σ ε α β : Type}

instance : Monad (Prog σ ε) where
  pure a := fun s => (.ok a, s)
  bind p f := fun s =>
    match p s with
    | (.ok a, s') => f a s'
    | (.err e, s') => (.err e, s')
    | (.exit n, s') => (.exit n, s')

/-- End with an error (`return Err(e)`). -/
def throw (e : ε) : Prog σ ε α := fun s => (.err e, s)

/-- End the process (`std::process::exit`). -/
def exit (status : ℕ) : Prog σ ε α := fun s => (.exit status, s)

def get : Prog σ ε σ := fun s => (.ok s, s)

def modify (f : σ → σ) : Prog σ ε Unit := fun s => (.ok (), f s)

/-- A result, or its error (`?`). -/
def ofExcept : Except ε α → Prog σ ε α
  | .ok a => pure a
  | .error e => throw e

/-- Replace the error (`map_err`). -/
def mapErr {ε' : Type} (g : ε → ε') (p : Prog σ ε α) : Prog σ ε' α := fun s =>
  ((p s).1.mapErr g, (p s).2)

/-- Go on after an error (`let _ =`). -/
def ignore {ε' : Type} (p : Prog σ ε Unit) : Prog σ ε' Unit := fun s => ((p s).1.ignore, (p s).2)

/-- **The program ends in `Q`.** -/
def Ends (p : Prog σ ε α) (s : σ) (Q : Outcome ε α → σ → Prop) : Prop := Q (p s).1 (p s).2

/-- How a postcondition is passed on to the caller. -/
def andThen (f : α → Prog σ ε β) (Q : Outcome ε β → σ → Prop) : Outcome ε α → σ → Prop
  | .ok a, s => (f a).Ends s Q
  | .err e, s => Q (.err e) s
  | .exit n, s => Q (.exit n) s

variable {p : Prog σ ε α} {f : α → Prog σ ε β} {s : σ}

theorem andThen_ok {Q : Outcome ε β → σ → Prop} {a : α} :
    andThen f Q (.ok a) s ↔ (f a).Ends s Q := Iff.rfl

theorem ofExcept_ok_bind (a : α) (f : α → Prog σ ε β) : (ofExcept (.ok a) >>= f) = f a := rfl

/-- The first part returns, and the rest goes on. -/
theorem bind_ok {a : α} {s' : σ} (h : p s = (.ok a, s')) : (p >>= f) s = f a s' := by
  simp only [bind, h]

theorem bind_congr {q : Prog σ ε α} {t : σ} (h : p s = q t) : (p >>= f) s = (q >>= f) t := by
  simp only [bind, h]

theorem ends_bind {Q : Outcome ε β → σ → Prop} :
    (p >>= f).Ends s Q ↔ p.Ends s (andThen f Q) := by
  unfold Ends
  show Q ((p >>= f) s).1 ((p >>= f) s).2 ↔ _
  simp only [bind]
  rcases p s with ⟨o, s'⟩
  cases o <;> rfl

theorem Ends.mono {Q R : Outcome ε α → σ → Prop} (h : p.Ends s Q) (hQR : ∀ o s', Q o s' → R o s') :
    p.Ends s R := hQR _ _ h

theorem Ends.and {Q R : Outcome ε α → σ → Prop} (hQ : p.Ends s Q) (hR : p.Ends s R) :
    p.Ends s fun o s' => Q o s' ∧ R o s' := ⟨hQ, hR⟩

/-- Replacing the errors of the parts. -/
theorem mapErr_bind {ε' : Type} (g : ε → ε') (p : Prog σ ε α) (f : α → Prog σ ε β) :
    (p >>= f).mapErr g = p.mapErr g >>= fun a => (f a).mapErr g := by
  funext s
  simp only [bind, mapErr]
  rcases p s with ⟨o, s'⟩
  cases o <;> rfl

theorem ends_mapErr {ε' : Type} {g : ε → ε'} {Q : Outcome ε' α → σ → Prop} :
    (p.mapErr g).Ends s Q ↔ p.Ends s fun o s' => Q (o.mapErr g) s' := Iff.rfl

/-- What is ignored is no error of the whole. -/
theorem ignore_ne_err {ε' : Type} (p : Prog σ ε Unit) (s : σ) (e : ε') :
    ((p.ignore : Prog σ ε' Unit) s).1 ≠ .err e := by
  show (p s).1.ignore ≠ .err e
  cases (p s).1 <;> simp [Outcome.ignore]

/-! ## Invariants -/

/-- **The program keeps an invariant**, however it ends. -/
def Keeps (I : σ → Prop) (p : Prog σ ε α) : Prop := ∀ s, I s → I (p s).2

variable {I : σ → Prop}

theorem Keeps.ends (h : Keeps I p) (hs : I s) : p.Ends s fun _ s' => I s' := h s hs

theorem keeps_pure (a : α) : Keeps I (pure a : Prog σ ε α) := fun _ h => h

theorem keeps_throw (e : ε) : Keeps I (throw e : Prog σ ε α) := fun _ h => h

theorem keeps_exit (n : ℕ) : Keeps I (exit n : Prog σ ε α) := fun _ h => h

theorem keeps_ofExcept (r : Except ε α) : Keeps I (ofExcept r : Prog σ ε α) := by
  cases r with
  | ok a => exact keeps_pure a
  | error e => exact keeps_throw e

theorem keeps_get : Keeps I (get : Prog σ ε σ) := fun _ h => h

theorem keeps_bind (hp : Keeps I p) (hf : ∀ a, Keeps I (f a)) : Keeps I (p >>= f) := by
  intro s hs
  have h := hp s hs
  show I ((p >>= f) s).2
  simp only [bind]
  rcases hps : p s with ⟨o, s'⟩
  rw [hps] at h
  cases o with
  | ok a => exact hf a s' h
  | err e => exact h
  | exit n => exact h

theorem keeps_mapErr {ε' : Type} (g : ε → ε') (hp : Keeps I p) : Keeps I (p.mapErr g) := hp

theorem keeps_ignore {ε' : Type} {p : Prog σ ε Unit} (hp : Keeps I p) :
    Keeps I (p.ignore : Prog σ ε' Unit) := hp

/-! ## Programs that do not exit -/

/-- The program does not end the process. -/
def NoExit (p : Prog σ ε α) : Prop := ∀ s n, (p s).1 ≠ .exit n

theorem noExit_pure (a : α) : NoExit (pure a : Prog σ ε α) := fun _ _ h => by cases h

theorem noExit_throw (e : ε) : NoExit (throw e : Prog σ ε α) := fun _ _ h => by cases h

theorem noExit_get : NoExit (get : Prog σ ε σ) := fun _ _ h => by cases h

theorem noExit_modify (g : σ → σ) : NoExit (modify g : Prog σ ε Unit) := fun _ _ h => by cases h

theorem noExit_bind (hp : NoExit p) (hf : ∀ a, NoExit (f a)) : NoExit (p >>= f) := by
  intro s n
  have h := hp s n
  show ((p >>= f) s).1 ≠ .exit n
  simp only [bind]
  rcases hps : p s with ⟨o, s'⟩
  rw [hps] at h
  cases o with
  | ok a => exact hf a s' n
  | err e => simp
  | exit m => exact fun hm => h (by cases hm; rfl)

/-- **What is ignored returns.** -/
theorem ends_ignore {ε' : Type} {p : Prog σ ε Unit} (hn : NoExit p) (hp : Keeps I p) (hs : I s) :
    (p.ignore : Prog σ ε' Unit).Ends s fun o s' => o = .ok () ∧ I s' := by
  refine ⟨?_, hp s hs⟩
  show (p s).1.ignore = .ok ()
  cases ho : (p s).1 with
  | ok u => rfl
  | err e => rfl
  | exit n => exact absurd ho (hn s n)

/-! ## Connecting the two -/

/-- **The first part returns `a`** and leaves the rest a state in `I`. -/
theorem ends_bind_ok {Q : Outcome ε β → σ → Prop} {a : α}
    (hp : p.Ends s fun o s' => o = .ok a ∧ I s') (hf : ∀ s', I s' → (f a).Ends s' Q) :
    (p >>= f).Ends s Q := by
  rw [ends_bind]
  refine hp.mono ?_
  rintro o s' ⟨rfl, hI⟩
  exact hf s' hI

/-- **The first part keeps an invariant** from where the whole may end, and the rest
goes on. -/
theorem ends_bind_keeps {Q : Outcome ε β → σ → Prop} (hp : Keeps I p) (hs : I s)
    (herr : ∀ e s', I s' → Q (.err e) s') (hexit : ∀ n s', I s' → Q (.exit n) s')
    (hf : ∀ a s', I s' → (f a).Ends s' Q) : (p >>= f).Ends s Q := by
  rw [ends_bind]
  refine (hp.ends hs).mono fun o s' hI => ?_
  cases o with
  | ok a => exact hf a s' hI
  | err e => exact herr e s' hI
  | exit n => exact hexit n s' hI

/-! ## Two runs of one program -/

/-- **The program respects a relation between states**: from related states it ends alike,
in related states. -/
def Respects (R : σ → σ → Prop) (p : Prog σ ε α) : Prop :=
  ∀ s t, R s t → (p s).1 = (p t).1 ∧ R (p s).2 (p t).2

variable {R : σ → σ → Prop}

theorem respects_pure (a : α) : Respects R (pure a : Prog σ ε α) := fun _ _ h => ⟨rfl, h⟩

theorem respects_throw (e : ε) : Respects R (throw e : Prog σ ε α) := fun _ _ h => ⟨rfl, h⟩

theorem respects_exit (n : ℕ) : Respects R (exit n : Prog σ ε α) := fun _ _ h => ⟨rfl, h⟩

theorem respects_ofExcept (r : Except ε α) : Respects R (ofExcept r : Prog σ ε α) := by
  cases r with
  | ok a => exact respects_pure a
  | error e => exact respects_throw e

theorem respects_modify {g : σ → σ} (hg : ∀ s t, R s t → R (g s) (g t)) :
    Respects R (modify g : Prog σ ε Unit) := fun s t h => ⟨rfl, hg s t h⟩

/-- **Reading the state**: what follows is the same program for related states. -/
theorem respects_get_bind {f : σ → Prog σ ε β} (heq : ∀ s t, R s t → f s = f t)
    (hf : ∀ s, Respects R (f s)) : Respects R (get >>= f) := by
  intro s t h
  have hs : (get >>= f) s = f s s := rfl
  have ht : (get >>= f) t = f s t := by
    rw [heq s t h]
    rfl
  rw [hs, ht]
  exact hf s s t h

theorem respects_bind (hp : Respects R p) (hf : ∀ a, Respects R (f a)) : Respects R (p >>= f) := by
  intro s t h
  have hst := hp s t h
  simp only [bind]
  rcases hps : p s with ⟨o, s'⟩
  rcases hpt : p t with ⟨o', t'⟩
  rw [hps, hpt] at hst
  obtain ⟨rfl, hR⟩ := hst
  cases o with
  | ok a => exact hf a s' t' hR
  | err e => exact ⟨rfl, hR⟩
  | exit n => exact ⟨rfl, hR⟩

theorem respects_mapErr {ε' : Type} (g : ε → ε') (hp : Respects R p) : Respects R (p.mapErr g) :=
  fun s t h => ⟨congrArg (Outcome.mapErr g) (hp s t h).1, (hp s t h).2⟩

theorem respects_ignore {ε' : Type} {p : Prog σ ε Unit} (hp : Respects R p) :
    Respects R (p.ignore : Prog σ ε' Unit) :=
  fun s t h => ⟨congrArg Outcome.ignore (hp s t h).1, (hp s t h).2⟩

end Prog

end Retrotls
