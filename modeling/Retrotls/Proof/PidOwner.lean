import Retrotls.Proof.Daemon

/-!
# Who owns the PID file

`Proc.live` is a daemon that has written its PID file, serves, and has not been signalled.

* `kept_step`: the PID file names every live daemon, nobody else is about to remove it,
  and a `stop` in progress aims at the live daemon.
* `pid_file_kept`: **the PID file names every live daemon**, in a run whose `start`s read
  alone and write while no other process is going to remove the file.
-/

namespace Retrotls

/-- The daemon has written its PID, and has not been signalled. -/
def Proc.live : Proc → Bool
  | .written => true
  | .serving false => true
  | _ => false

/-- The process removes the PID file next, or once it has handled its signal. -/
def Proc.removing : Proc → Bool
  | .serving true => true
  | .draining => true
  | .stopDead => true
  | .stopKilled => true
  | _ => false

/-- The PID that a `stop` aims at. -/
def Proc.aim : Proc → Option ℕ
  | .stopRead q => some q
  | .stopAlive q => some q
  | _ => none

namespace System

variable {s s' : System} {a : Act} {p q : ℕ}

def Live (s : System) (q : ℕ) : Prop := ∃ x, s.procs q = some x ∧ x.live = true

/-- A `start` writes the file while no drain and no `stop` will remove it. -/
def WritesAlone (s : System) (a : Act) : Prop :=
  ∀ p, a = .own p → s.procs p = some .cleared →
    ∀ r x, s.procs r = some x → x.removing = false ∧ x.aim = none

/-- **The PID file names the live daemon.** -/
def Owned (s : System) : Prop := ∀ q, s.Live q → s.file = some (writePidFile q)

/-- The invariant. -/
structure Kept (s : System) : Prop where
  owned : s.Owned
  removing : ∀ r x q, s.procs r = some x → x.removing = true → ¬ s.Live q
  aim : ∀ r x k q, s.procs r = some x → x.aim = some k → s.Live q → q = k

theorem owning_live : Owning Proc.live where
  written := rfl
  window := fun x h => by
    cases x with
    | written => rfl
    | serving b => rfl
    | _ => cases h
  signalled := fun _ => rfl
  draining := fun h => by cases h
  removed := fun h => by cases h

theorem view_live : view Proc.live s q = .owner ↔ s.Live q := view_owner

theorem kept_of_no_live (h : ∀ q, ¬ s.Live q) : s.Kept where
  owned := fun q hq => absurd hq (h q)
  removing := fun _ _ q _ _ => h q
  aim := fun _ _ _ q _ _ hq => absurd hq (h q)

theorem live_set_ne {x : Option Proc} (hqp : q ≠ p) : (s.set p x).Live q ↔ s.Live q := by
  unfold Live
  rw [set_procs_ne s x hqp]

theorem live_set_self {x : Proc} : (s.set p (some x)).Live p ↔ x.live = true := by
  unfold Live
  rw [set_procs_self]
  simp

/-- A step that makes no process live. -/
theorem live_of_set {x : Option Proc} (hx : ∀ y, x = some y → y.live = true → s.Live p)
    (h : (s.set p x).Live q) : s.Live q := by
  by_cases hqp : q = p
  · obtain ⟨y, hy, hl⟩ := h
    rw [hqp, set_procs_self] at hy
    rw [hqp]
    exact hx y hy hl
  · exact (live_set_ne hqp).1 h

/-- One process moves on, and the file stays. -/
theorem kept_set (hs : s.Kept) {x : Option Proc}
    (hlive : ∀ y, x = some y → y.live = true → s.Live p)
    (hrem : ∀ y q, x = some y → y.removing = true → ¬ (s.set p x).Live q)
    (haim : ∀ y k q, x = some y → y.aim = some k → s.Live q → q = k) : (s.set p x).Kept := by
  refine ⟨?_, ?_, ?_⟩
  · intro q hq
    exact hs.owned q (live_of_set hlive hq)
  · intro r y q hr hy hq
    rcases set_procs_some hr with ⟨-, hx⟩ | hr
    · exact hrem y q hx hy hq
    · exact hs.removing r y q hr hy (live_of_set hlive hq)
  · intro r y k q hr hy hq
    have hq' : s.Live q := live_of_set hlive hq
    rcases set_procs_some hr with ⟨-, hx⟩ | hr
    · exact haim y k q hx hy hq'
    · exact hs.aim r y k q hr hy hq'

/-- A process moves to a phase that is not live and removes nothing, and aims at the live
daemon if it aims at all. -/
theorem kept_aiming (hs : s.Kept) {x : Proc} (hl : x.live = false) (hr : x.removing = false)
    (haim : ∀ k q, x.aim = some k → s.Live q → q = k) : (s.set p (some x)).Kept := by
  refine kept_set hs ?_ ?_ ?_
  · rintro y ⟨⟩ hy
    rw [hl] at hy
    cases hy
  · rintro y q ⟨⟩ hy
    rw [hr] at hy
    cases hy
  · rintro y k q ⟨⟩ hk hq
    exact haim k q hk hq

/-- A process moves to a phase that is not live and has no say over the file. -/
theorem kept_plain (hs : s.Kept) {x : Proc} (hl : x.live = false) (hr : x.removing = false)
    (haim : x.aim = none) : (s.set p (some x)).Kept := by
  refine kept_aiming hs hl hr ?_
  intro k q hk
  rw [haim] at hk
  cases hk

/-- A process is gone. -/
theorem kept_gone (hs : s.Kept) : (s.set p none).Kept :=
  kept_set hs (fun _ h => by cases h) (fun _ _ h => by cases h) (fun _ _ _ h => by cases h)

/-- The signalled daemon was the only live one. -/
theorem no_live_after (hs : s.Kept) (hv : Lease.Inv (view Proc.live s)) {x : Proc}
    (hp : s.procs p = some x) (hx : x.live = true ∨ x.removing = true) {y : Proc}
    (hy : y.live = false) (q : ℕ) : ¬ (s.set p (some y)).Live q := by
  intro hq
  by_cases hqp : q = p
  · rw [hqp, live_set_self, hy] at hq
    cases hq
  · have hq' := (live_set_ne hqp).1 hq
    rcases hx with hx | hx
    · exact hqp (hv.owner q p (view_live.2 hq') (view_live.2 ⟨x, hp, hx⟩))
    · exact hs.removing p x q hp hx hq'

/-- Without a live daemon, a step that starts none leaves none. -/
theorem no_live_set (h : ∀ q, ¬ s.Live q) {x : Option Proc} (hx : ∀ y, x = some y → y.live = false)
    (q : ℕ) : ¬ (s.set p x).Live q := by
  intro hq
  refine h q (live_of_set (fun y hy hl => ?_) hq)
  rw [hx y hy] at hl
  cases hl

theorem live_sigterm {x y : Proc} (h : x.sigterm = some y) : y.live = false := by
  cases x <;> cases h <;> rfl

/-- The file may go where nobody is live. -/
theorem kept_removed (hno : ∀ q, ¬ s.Live q) {x : Proc} (hx : x.live = false) :
    (s.removePidFile.set p (some x)).Kept := by
  refine kept_of_no_live (no_live_set (s := s.removePidFile) hno ?_)
  rintro y ⟨⟩
  exact hx

/-- A daemon writes its file, where nobody is live and nobody will remove it. -/
theorem kept_write (hno : ∀ q, ¬ s.Live q)
    (hother : ∀ r y, s.procs r = some y → y.removing = false ∧ y.aim = none) :
    ({ s with file := some (writePidFile p) }.set p (some .written)).Kept := by
  have hone : ∀ q, ({ s with file := some (writePidFile p) }.set p (some .written)).Live q →
      q = p := by
    intro q hq
    by_contra hqp
    exact hno q ((live_set_ne hqp).1 hq)
  refine ⟨?_, ?_, ?_⟩
  · intro q hq
    rw [hone q hq]
    rfl
  · intro r y q hr hy
    rcases set_procs_some hr with ⟨-, ⟨⟩⟩ | hr
    · cases hy
    · rw [(hother r y hr).1] at hy
      cases hy
  · intro r y k q hr hy
    rcases set_procs_some hr with ⟨-, ⟨⟩⟩ | hr
    · cases hy
    · rw [(hother r y hr).2] at hy
      cases hy

/-- The file that is read names the live daemon. -/
theorem live_of_read (hs : s.Kept) (hpid : s.PidsOk) (hr : readPidFile s.file = some q) {r : ℕ}
    (hl : s.Live r) : r = q := by
  have hfile : s.file = some (writePidFile r) := hs.owned r hl
  obtain ⟨z, hz, -⟩ := hl
  rw [hfile, readPidFile_writePidFile (hpid.procs r z hz)] at hr
  exact Option.some.inj hr

/-- The process that a `stop` aims at is gone: no other one was live. -/
theorem no_live_of_gone (hs : s.Kept) (hpid : s.PidsOk) (hp : s.procs p = some (.stopRead q))
    (hr : s.isProcessRunning q = false) (r : ℕ) : ¬ s.Live r := by
  intro hl
  have hrq : r = q := hs.aim p _ q r hp rfl hl
  obtain ⟨z, hz, -⟩ := hl
  rw [hrq] at hz
  rw [isProcessRunning_eq (hpid.read p _ q hp rfl), hz] at hr
  cases hr

/-- The process that a `stop` aims at is signalled: no other one was live. -/
theorem no_live_of_kill (hs : s.Kept) (hpid : s.PidsOk) (hp : s.procs p = some (.stopAlive q))
    (r : ℕ) : ¬ ((s.set p (some .stopKilled)).kill (asI32 q)).Live r := by
  rw [kill_eq (hpid.read p _ q hp rfl)]
  intro hl
  by_cases hrq : r = q
  · obtain ⟨z, hz, hzl⟩ := hl
    rw [hrq, set_procs_self] at hz
    obtain ⟨y, -, hy⟩ := Option.bind_eq_some_iff.1 hz
    rw [live_sigterm hy] at hzl
    cases hzl
  · have hmid : (s.set p (some .stopKilled)).Live r := (live_set_ne hrq).1 hl
    have hold : s.Live r := live_of_set (by rintro _ ⟨⟩ h; cases h) hmid
    exact hrq (hs.aim p _ q r hp rfl hold)

/-- **A process's own step keeps the invariant.** -/
theorem kept_own (hs : s.Kept) (hv : Lease.Inv (view Proc.live s)) (hpid : s.PidsOk) {x : Proc}
    (hp : s.procs p = some x)
    (hw : x = .cleared → ∀ r y, s.procs r = some y → y.removing = false ∧ y.aim = none)
    (h : Own s p x s') : s'.Kept := by
  -- a `start` that is past its check finds the lease free
  have hclear : checkRole x = .clear → x.inWindow = false → ∀ q, ¬ s.Live q := by
    intro hc hn q hq
    refine hv.clear p q ?_ (view_live.2 hq)
    rw [view_of_procs hp]
    exact (owning_live.role_out hn).trans hc
  cases h with
  | read_none | read_some | running | gone | stop_none | stop_fails => exact kept_plain hs rfl rfl rfl
  | clear => exact kept_removed (hclear rfl rfl) rfl
  | write => exact kept_write (hclear rfl rfl) (hw rfl)
  | serve =>
    -- it was live before
    refine kept_set hs (fun _ _ _ => ⟨_, hp, rfl⟩) ?_ ?_
    · rintro y q ⟨⟩ hr
      cases hr
    · rintro y k q ⟨⟩ hk
      cases hk
  | drain => exact kept_of_no_live (no_live_after hs hv hp (Or.inr rfl) rfl)
  | remove | stop_dead | stop_killed =>
    have hno : ∀ q, ¬ s.Live q := fun q => hs.removing p _ q hp rfl
    exact kept_removed hno rfl
  | exit | stop_exit => exact kept_gone hs
  | stop_some q hr =>
    refine kept_aiming hs rfl rfl ?_
    rintro k r ⟨⟩ hl
    exact live_of_read hs hpid hr hl
  | stop_running q hr =>
    refine kept_aiming hs rfl rfl ?_
    intro k r hk hl
    exact hs.aim p _ k r hp hk hl
  | stop_gone q hr =>
    have hno : ∀ r, ¬ s.Live r := no_live_of_gone hs hpid hp hr
    exact kept_of_no_live (no_live_set hno (by rintro _ ⟨⟩; rfl))
  | stop_kill q hr => exact kept_of_no_live (no_live_of_kill hs hpid hp)

theorem kept_step (hs : s.Kept) (hv : Lease.Inv (view Proc.live s)) (hpid : s.PidsOk)
    (hw : s.WritesAlone a) (h : s.step a = some s') : s'.Kept := by
  rcases step_cases h with ⟨p, program, -, -, -, rfl⟩ | ⟨p, x, rfl, hp, hx⟩ | ⟨p, b, -, hp, rfl⟩ |
    ⟨p, -, -, rfl⟩
  · cases program <;> exact kept_plain hs rfl rfl rfl
  · exact kept_own hs hv hpid hp (fun hc => hw p rfl (by rw [hp, hc])) hx
  · refine kept_of_no_live (no_live_after hs hv hp ?_ rfl)
    cases b with
    | false => exact Or.inl rfl
    | true => exact Or.inr rfl
  · exact kept_gone hs

/-- The file may be read: the invariant says that it names the live daemon. -/
theorem mayRead_of_kept (hs : s.Kept) (hpid : s.PidsOk) (hr : s.ReadsAlone a) :
    MayRead Proc.live s a := by
  intro p ha hp
  refine ⟨not_checks_of_readsAlone owning_live hr ha hp, fun r hl => ?_⟩
  obtain ⟨x, hx, hxl⟩ := view_live.1 hl
  rw [hs.owned r ⟨x, hx, hxl⟩]
  exact readPidFile_writePidFile (hpid.procs r x hx)

/-- **The PID file is kept**, in every state of a run whose `start`s read alone and write
alone. -/
theorem pid_file_kept {s₀ : System} (h₀ : s₀.Initial) {as : List Act}
    (hr : Along step (fun s a => s.ReadsAlone a ∧ s.WritesAlone a) s₀ as) :
    ∀ s ∈ visited step s₀ as, s.Owned := by
  have hinit : s₀.PidsOk ∧ Lease.Inv (view Proc.live s₀) ∧ s₀.Kept := by
    refine ⟨h₀.pidsOk, ?_, kept_of_no_live fun q ⟨x, hx, _⟩ => ?_⟩
    · rw [h₀.view]
      exact Lease.inv_out
    · rw [h₀.1 q] at hx
      cases hx
  have hstep : ∀ s a s', (s.PidsOk ∧ Lease.Inv (view Proc.live s) ∧ s.Kept) →
      (s.ReadsAlone a ∧ s.WritesAlone a) → step s a = some s' →
      s'.PidsOk ∧ Lease.Inv (view Proc.live s') ∧ s'.Kept := by
    rintro s a s' ⟨hpid, hv, hk⟩ ⟨halone, hw⟩ h
    obtain ⟨bs, hb⟩ := lease_step owning_live hpid (mayRead_of_kept hk hpid halone) h
    exact ⟨pidsOk_step hpid h, exec_inv_all (fun _ _ _ => Lease.step_inv) hv hb,
      kept_step hk hv hpid hw h⟩
  intro s hs
  exact (visited_inv hstep hinit hr hs).2.2.owned

theorem pid_file_kept_start :
    ∃ s, exec step empty (startRun 1) = some s ∧ s.procs 1 = some .written ∧ s.Owned := by
  refine ⟨_, rfl, rfl, pid_file_kept initial_empty (along_startRun ?_ ?_ ?_) _ (exec_mem_visited rfl)⟩
  · exact fun s a ha => ⟨fun p h => absurd h (ha p), fun p h => absurd h (ha p)⟩
  · refine ⟨fun p _ _ r x hr => ?_, fun p hp hb => ?_⟩
    · rw [begun_of_set hr]
      rfl
    · cases hp
      cases hb
  · refine ⟨fun p hp hb => ?_, fun p _ _ r x hr => ?_⟩
    · cases hp
      cases hb
    · by_cases h1 : r = 1
      · rw [h1, set_procs_self] at hr
        cases hr
        exact ⟨rfl, rfl⟩
      · rw [set_procs_ne _ _ h1, set_procs_ne _ _ h1] at hr
        cases hr

/-- The step is no read of a `start`. -/
def NoRead (s : System) (a : Act) : Prop := ∀ p, a = .own p → s.procs p ≠ some .begun

instance (s : System) (a : Act) : Decidable (NoRead s a) :=
  match a with
  | .own p => decidable_of_iff (s.procs p ≠ some .begun)
      ⟨fun h q hq => by cases hq; exact h, fun h => h p rfl⟩
  | .spawn p program => isTrue fun _ h => by cases h
  | .signal p => isTrue fun _ h => by cases h
  | .die p => isTrue fun _ h => by cases h

theorem readsAlone_of_noRead (s : System) (a : Act) (h : NoRead s a) : s.ReadsAlone a :=
  fun p ha hp => absurd hp (h p ha)

/-- Daemon 1 serves, a `stop` signals it and removes its file, and it starts to drain. -/
def stopped : List Act :=
  [.own 1, .own 1, .spawn 2 .stop, .own 2, .own 2, .own 2, .own 2, .own 1, .spawn 3 .start]

/-- Daemon 3 writes its file and serves, and daemon 1 has drained. -/
def restarted : List Act := [.own 3, .own 3, .own 1]

/-- A `stop` and a new `start`, while daemon 1 drains. -/
def restart : List Act := ([.spawn 1 .start] ++ ([.own 1] ++ stopped)) ++ ([.own 3] ++ restarted)

/-- What the processes are when daemon 3 reads the file. -/
theorem procs_before_restart {t : System}
    (h : exec step empty ([.spawn 1 .start] ++ ([.own 1] ++ stopped)) = some t) {r : ℕ} {x : Proc}
    (hr : t.procs r = some x) : x = .draining ∨ x = .ending ∨ x = .begun := by
  cases h
  match r, hr with
  | 0, hr => cases hr
  | 1, hr => cases hr; exact Or.inl rfl
  | 2, hr => cases hr; exact Or.inr (Or.inl rfl)
  | 3, hr => cases hr; exact Or.inr (Or.inr rfl)
  | r + 4, hr => cases hr

theorem restart_readsAlone : Along step ReadsAlone empty restart := by
  have hrest : ∀ {s as}, Along step NoRead s as → Along step ReadsAlone s as :=
    Along.mono readsAlone_of_noRead
  refine along_append (along_append (hrest (by decide)) fun t ht => along_append ?_ fun u hu => ?_)
    fun t ht => along_append ?_ fun u hu => ?_
  · cases ht
    refine ⟨fun p _ _ r x hr => ?_, fun s' _ => along_nil s'⟩
    rw [begun_of_set hr]
    rfl
  · cases ht
    cases hu
    exact hrest (by decide)
  · refine ⟨fun p _ _ r x hr => ?_, fun s' _ => along_nil s'⟩
    rcases procs_before_restart ht hr with rfl | rfl | rfl <;> rfl
  · cases ht
    cases hu
    exact hrest (by decide)

/-- The new daemon serves, and its PID file is gone. -/
theorem restart_loses_file : empty.Initial ∧ Along step ReadsAlone empty restart ∧
    ∃ s, exec step empty restart = some s ∧ s.procs 3 = some (.serving false) ∧ s.file = none ∧
      ¬ s.Owned := by
  refine ⟨initial_empty, restart_readsAlone, _, rfl, rfl, rfl, fun h => ?_⟩
  have hfile : (none : Option Str) = some (writePidFile 3) := h 3 ⟨_, rfl, rfl⟩
  cases hfile

end System

end Retrotls
