import Retrotls.Spec.Daemon
import Retrotls.Lib.Lease

/-!
# One daemon per home directory

The PID file is the register of a lease (`Lease`), with a choice of the phases that count
as owning it.

* `lease_step`: **a step of the processes is a run of the lease**, where every `start`
  reads the file alone and the file names every owner.
* `single_daemon`: **at most one process is between its write and its exit**, in the
  runs in which every `start` reads alone and finds such a process named.
-/

namespace Retrotls

/-- Between `read_pid_file` and `write_pid_file` of a `start`. -/
def Proc.checking : Proc → Bool
  | .probing _ => true
  | .stale => true
  | .cleared => true
  | _ => false

/-- Between `write_pid_file` and the exit. -/
def Proc.inWindow : Proc → Bool
  | .written => true
  | .serving _ => true
  | .draining => true
  | .removed => true
  | _ => false

/-- The PID that a process has read in the file. -/
def Proc.readPid : Proc → Option ℕ
  | .probing q => some q
  | .stopRead q => some q
  | .stopAlive q => some q
  | _ => none

namespace System

variable {s s' : System} {a : Act} {p q : ℕ}

/-! ## Steps -/

theorem set_procs_self (s : System) (p : ℕ) (x : Option Proc) : (s.set p x).procs p = x :=
  Function.update_self ..

theorem set_procs_ne (s : System) {p q : ℕ} (x : Option Proc) (h : q ≠ p) :
    (s.set p x).procs q = s.procs q := Function.update_of_ne h ..

/-- What is at a PID after one process has changed. -/
theorem set_procs_some {x : Option Proc} {r : ℕ} {y : Proc} (h : (s.set p x).procs r = some y) :
    (r = p ∧ x = some y) ∨ s.procs r = some y := by
  by_cases hrp : r = p
  · rw [hrp, set_procs_self] at h
    exact Or.inl ⟨hrp, h⟩
  · rw [set_procs_ne s x hrp] at h
    exact Or.inr h

/-- The next steps of a process, one by one. -/
inductive Own (s : System) (p : ℕ) : Proc → System → Prop
  | read_none (h : readPidFile s.file = none) : Own s p .begun (s.set p (some .cleared))
  | read_some (q : ℕ) (h : readPidFile s.file = some q) : Own s p .begun (s.set p (some (.probing q)))
  | running (q : ℕ) (h : s.isProcessRunning q = true) : Own s p (.probing q) (s.set p (some .ending))
  | gone (q : ℕ) (h : s.isProcessRunning q = false) : Own s p (.probing q) (s.set p (some .stale))
  | clear : Own s p .stale (s.removePidFile.set p (some .cleared))
  | write : Own s p .cleared ({ s with file := some (writePidFile p) }.set p (some .written))
  | serve : Own s p .written (s.set p (some (.serving false)))
  | drain : Own s p (.serving true) (s.set p (some .draining))
  | remove : Own s p .draining (s.removePidFile.set p (some .removed))
  | exit : Own s p .removed (s.set p none)
  | stop_none (h : readPidFile s.file = none) : Own s p .stopBegun (s.set p (some .ending))
  | stop_some (q : ℕ) (h : readPidFile s.file = some q) :
      Own s p .stopBegun (s.set p (some (.stopRead q)))
  | stop_running (q : ℕ) (h : s.isProcessRunning q = true) :
      Own s p (.stopRead q) (s.set p (some (.stopAlive q)))
  | stop_gone (q : ℕ) (h : s.isProcessRunning q = false) :
      Own s p (.stopRead q) (s.set p (some .stopDead))
  | stop_kill (q : ℕ) (h : s.kill0 (asI32 q) = true) :
      Own s p (.stopAlive q) ((s.set p (some .stopKilled)).kill (asI32 q))
  | stop_fails (q : ℕ) (h : s.kill0 (asI32 q) = false) :
      Own s p (.stopAlive q) (s.set p (some .ending))
  | stop_dead : Own s p .stopDead (s.removePidFile.set p (some .ending))
  | stop_killed : Own s p .stopKilled (s.removePidFile.set p (some .ending))
  | stop_exit : Own s p .ending (s.set p none)

theorem own_some {x : Proc} (h : s.own p x = some s') : Own s p x s' := by
  cases x with
  | begun =>
    cases hr : readPidFile s.file with
    | none =>
      simp only [own, hr, Option.some.injEq] at h
      exact h ▸ .read_none hr
    | some q =>
      simp only [own, hr, Option.some.injEq] at h
      exact h ▸ .read_some q hr
  | probing q =>
    cases hr : s.isProcessRunning q with
    | false =>
      simp [own, hr] at h
      exact h ▸ .gone q hr
    | true =>
      simp [own, hr] at h
      exact h ▸ .running q hr
  | stale => cases h; exact .clear
  | cleared => cases h; exact .write
  | written => cases h; exact .serve
  | serving b =>
    cases b with
    | false => cases h
    | true => cases h; exact .drain
  | draining => cases h; exact .remove
  | removed => cases h; exact .exit
  | stopBegun =>
    cases hr : readPidFile s.file with
    | none =>
      simp only [own, hr, Option.some.injEq] at h
      exact h ▸ .stop_none hr
    | some q =>
      simp only [own, hr, Option.some.injEq] at h
      exact h ▸ .stop_some q hr
  | stopRead q =>
    cases hr : s.isProcessRunning q with
    | false =>
      simp [own, hr] at h
      exact h ▸ .stop_gone q hr
    | true =>
      simp [own, hr] at h
      exact h ▸ .stop_running q hr
  | stopAlive q =>
    cases hr : s.kill0 (asI32 q) with
    | false =>
      simp [own, hr] at h
      exact h ▸ .stop_fails q hr
    | true =>
      simp [own, hr] at h
      exact h ▸ .stop_kill q hr
  | stopDead => cases h; exact .stop_dead
  | stopKilled => cases h; exact .stop_killed
  | ending => cases h; exact .stop_exit
  | other => cases h

/-- What one step can do. -/
theorem step_cases (h : s.step a = some s') :
    (∃ p program, a = .spawn p program ∧ ValidPid p ∧ s.procs p = none ∧
      s' = s.set p (some program.entry)) ∨
    (∃ p x, a = .own p ∧ s.procs p = some x ∧ Own s p x s') ∨
    (∃ p b, a = .signal p ∧ s.procs p = some (.serving b) ∧ s' = s.set p (some .draining)) ∨
    (∃ p, a = .die p ∧ (s.procs p).isSome ∧ s' = s.set p none) := by
  cases a with
  | spawn p program =>
    left
    obtain ⟨⟨hv, hp⟩, rfl⟩ := of_guard h
    exact ⟨p, program, rfl, hv, hp, rfl⟩
  | own p =>
    right; left
    obtain ⟨x, hx, ho⟩ := Option.bind_eq_some_iff.1 h
    exact ⟨p, x, rfl, hx, own_some ho⟩
  | signal p =>
    right; right; left
    simp only [step] at h
    split at h
    · rename_i b hp
      cases h
      exact ⟨p, b, rfl, hp, rfl⟩
    · cases h
  | die p =>
    right; right; right
    obtain ⟨hp, rfl⟩ := of_guard h
    exact ⟨p, rfl, hp, rfl⟩

/-! ## Possible PIDs -/

/-- Every PID in the system is possible: those of processes, in the file, and read. -/
structure PidsOk (s : System) : Prop where
  procs : ∀ p x, s.procs p = some x → ValidPid p
  file : ∀ q, readPidFile s.file = some q → ValidPid q
  read : ∀ p x q, s.procs p = some x → x.readPid = some q → ValidPid q

theorem isProcessRunning_eq (hq : ValidPid q) : s.isProcessRunning q = (s.procs q).isSome := by
  rw [isProcessRunning, kill0, asI32_of_valid hq, Int.toNat_natCast]
  simp [hq.1]

theorem kill_eq (hq : ValidPid q) :
    s.kill (asI32 q) = s.set q ((s.procs q).bind Proc.sigterm) := by
  rw [kill, asI32_of_valid hq, Int.toNat_natCast]

theorem pidsOk_set (hs : s.PidsOk) {x : Option Proc} (hp : ValidPid p)
    (hx : ∀ y q, x = some y → y.readPid = some q → ValidPid q) : (s.set p x).PidsOk := by
  refine ⟨?_, hs.file, ?_⟩
  · intro r y hr
    rcases set_procs_some hr with ⟨rfl, -⟩ | hr
    · exact hp
    · exact hs.procs r y hr
  · intro r y q hr hq
    rcases set_procs_some hr with ⟨-, hy⟩ | hr
    · exact hx y q hy hq
    · exact hs.read r y q hr hq

theorem pidsOk_file (hs : s.PidsOk) {content : Option Str}
    (hc : ∀ q, readPidFile content = some q → ValidPid q) : PidsOk { s with file := content } :=
  ⟨hs.procs, hc, hs.read⟩

/-- A `SIGTERM` makes no process read a PID. -/
theorem readPid_sigterm {x y : Proc} (h : x.sigterm = some y) : y.readPid = none := by
  cases x <;> cases h <;> rfl

/-- A process moves to a phase that has read a possible PID, or none. -/
theorem pidsOk_phase (hs : s.PidsOk) (hp : ValidPid p) {x : Proc}
    (hx : ∀ q, x.readPid = some q → ValidPid q) : (s.set p (some x)).PidsOk := by
  refine pidsOk_set hs hp ?_
  rintro y q ⟨⟩ hq
  exact hx q hq

theorem pidsOk_quiet (hs : s.PidsOk) (hp : ValidPid p) {x : Proc} (hx : x.readPid = none) :
    (s.set p (some x)).PidsOk := by
  refine pidsOk_phase hs hp ?_
  intro q hq
  rw [hx] at hq
  cases hq

theorem pidsOk_gone (hs : s.PidsOk) (hp : ValidPid p) : (s.set p none).PidsOk :=
  pidsOk_set hs hp fun _ _ h => by cases h

theorem pidsOk_removed (hs : s.PidsOk) : s.removePidFile.PidsOk :=
  pidsOk_file hs fun _ h => by cases h

theorem pidsOk_kill (hs : s.PidsOk) (hq : ValidPid q) : (s.kill (asI32 q)).PidsOk := by
  rw [kill_eq hq]
  refine pidsOk_set hs hq ?_
  intro y r hy hr
  obtain ⟨z, -, hz⟩ := Option.bind_eq_some_iff.1 hy
  rw [readPid_sigterm hz] at hr
  cases hr

theorem pidsOk_own (hs : s.PidsOk) {x : Proc} (hp : s.procs p = some x) (h : Own s p x s') :
    s'.PidsOk := by
  have hv : ValidPid p := hs.procs p x hp
  cases h with
  | read_some q hr | stop_some q hr =>
    refine pidsOk_phase hs hv ?_
    rintro _ ⟨⟩
    exact hs.file q hr
  | stop_running q hr => exact pidsOk_phase hs hv fun q' hq => hs.read p _ q' hp hq
  | stop_kill q hr => exact pidsOk_kill (pidsOk_quiet hs hv rfl) (hs.read p _ q hp rfl)
  | write =>
    refine pidsOk_quiet (pidsOk_file hs ?_) hv rfl
    intro q hq
    rw [readPidFile_writePidFile hv] at hq
    cases hq
    exact hv
  | clear | remove | stop_dead | stop_killed => exact pidsOk_quiet (pidsOk_removed hs) hv rfl
  | exit | stop_exit => exact pidsOk_gone hs hv
  | _ => exact pidsOk_quiet hs hv rfl

theorem pidsOk_step (hs : s.PidsOk) (h : s.step a = some s') : s'.PidsOk := by
  rcases step_cases h with ⟨p, program, -, hv, -, rfl⟩ | ⟨p, x, -, hp, ho⟩ | ⟨p, b, -, hp, rfl⟩ |
    ⟨p, -, hp, rfl⟩
  · cases program <;> exact pidsOk_quiet hs hv rfl
  · exact pidsOk_own hs hp ho
  · exact pidsOk_quiet hs (hs.procs p _ hp) rfl
  · obtain ⟨x, hx⟩ := Option.isSome_iff_exists.1 hp
    exact pidsOk_gone hs (hs.procs p x hx)

theorem Initial.pidsOk (hs : s.Initial) : s.PidsOk where
  procs := fun p x h => by rw [hs.1 p] at h; cases h
  file := hs.2
  read := fun p x q h => by rw [hs.1 p] at h; cases h

/-! ## The lease -/

/-- A choice of the phases that own the PID file: from the write on, and never again
once it is given up. -/
structure Owning (own : Proc → Bool) : Prop where
  written : own .written = true
  window : ∀ x, own x = true → x.inWindow = true
  signalled : own (.serving true) = true → own (.serving false) = true
  draining : own .draining = true → own (.serving true) = true
  removed : own .removed = true → own .draining = true

/-- The role of a process that does not own the file. -/
def checkRole : Proc → Lease.Role ℕ
  | .probing q => .looking q
  | .stale => .clear
  | .cleared => .clear
  | _ => .out

def role (own : Proc → Bool) (x : Proc) : Lease.Role ℕ := if own x then .owner else checkRole x

/-- The role of what is at a PID. -/
def roleAt (own : Proc → Bool) (x : Option Proc) : Lease.Role ℕ := (x.map (role own)).getD .out

/-- **The lease that the processes stand for.** -/
def view (own : Proc → Bool) (s : System) (p : ℕ) : Lease.Role ℕ := roleAt own (s.procs p)

variable {own : Proc → Bool}

theorem view_set (s : System) (p : ℕ) (x : Option Proc) :
    view own (s.set p x) = Function.update (view own s) p (roleAt own x) := by
  funext q
  by_cases hqp : q = p
  · rw [hqp, Function.update_self, view, set_procs_self]
  · rw [Function.update_of_ne hqp, view, set_procs_ne s x hqp, view]

theorem Owning.role_out (ho : Owning own) {x : Proc} (hx : x.inWindow = false) :
    role own x = checkRole x := by
  refine if_neg fun h => ?_
  rw [ho.window x h] at hx
  cases hx

theorem view_owner : view own s p = .owner ↔ ∃ x, s.procs p = some x ∧ own x = true := by
  unfold view roleAt
  cases hx : s.procs p with
  | none => simp
  | some x =>
    have hc : checkRole x ≠ .owner := by cases x <;> simp [checkRole]
    by_cases h : own x = true
    · simp [role, h]
    · simp [role, h, hc]

theorem view_checks (ho : Owning own) : (view own s p).checks ↔
    ∃ x, s.procs p = some x ∧ x.checking = true := by
  unfold view roleAt
  cases hx : s.procs p with
  | none => simp [Lease.Role.checks]
  | some x =>
    simp only [Option.map_some, Option.getD_some, Option.some.injEq, exists_eq_left']
    by_cases h : own x = true
    · have hw := ho.window x h
      rw [role, if_pos h]
      revert hw
      cases x <;> simp [Proc.inWindow, Lease.Role.checks, Proc.checking]
    · rw [role, if_neg h]
      cases x <;> simp [checkRole, Lease.Role.checks, Proc.checking]

/-- A process that keeps its role or gives it up. -/
theorem follow (v : ℕ → Lease.Role ℕ) (p : ℕ) {r : Lease.Role ℕ} (h : r = v p ∨ r = .out) :
    ∃ bs, exec Lease.step v bs = some (Function.update v p r) := by
  rcases h with rfl | rfl
  · exact ⟨[], by rw [Function.update_eq_self]; rfl⟩
  · exact ⟨[.leave p], rfl⟩

theorem follow_set (x : Option Proc) (h : roleAt own x = view own s p ∨ roleAt own x = .out) :
    ∃ bs, exec Lease.step (view own s) bs = some (view own (s.set p x)) := by
  rw [view_set]
  exact follow _ p h

/-- The role outside the window. -/
theorem Owning.roleAt_check (ho : Owning own) {x : Proc} (hx : x.inWindow = false) :
    roleAt own (some x) = checkRole x := ho.role_out hx

/-- A phase outside the window, other than a check, has no role. -/
theorem Owning.roleAt_out (ho : Owning own) {x : Proc} (hx : x.inWindow = false)
    (hc : x.checking = false) : roleAt own (some x) = .out := by
  rw [ho.roleAt_check hx]
  cases x with
  | probing q => cases hc
  | stale | cleared => cases hc
  | _ => rfl

/-- From one owning phase to a later one. -/
theorem roleAt_later {x y : Proc} (hx : x.inWindow = true) (hy : y.inWindow = true)
    (h : own y = true → own x = true) :
    roleAt own (some y) = roleAt own (some x) ∨ roleAt own (some y) = .out := by
  have hout : ∀ z : Proc, z.inWindow = true → checkRole z = .out := by
    intro z hz
    cases z with
    | written | removed | draining => rfl
    | serving b => rfl
    | _ => cases hz
  simp only [roleAt, role, Option.map_some, Option.getD_some, hout x hx, hout y hy]
  by_cases hyo : own y = true
  · left
    rw [if_pos hyo, if_pos (h hyo)]
  · right
    rw [if_neg hyo]

theorem follow_sigterm (ho : Owning own) (s : System) (q : ℕ) :
    ∃ bs, exec Lease.step (view own s) bs =
      some (view own (s.set q ((s.procs q).bind Proc.sigterm))) := by
  refine follow_set _ ?_
  unfold view
  cases hx : s.procs q with
  | none => exact Or.inl rfl
  | some x =>
    rw [Option.bind_some]
    cases x with
    | serving b =>
      cases b with
      | false => exact roleAt_later rfl rfl ho.signalled
      | true => exact Or.inl rfl
    | draining | removed | other => exact Or.inl rfl
    | _ => exact Or.inr rfl

/-- The file is read by a `start` when the lease may be looked at. -/
def MayRead (own : Proc → Bool) (s : System) (a : Act) : Prop :=
  ∀ p, a = .own p → s.procs p = some .begun → Lease.MayLook (view own s) (readPidFile s.file)

theorem view_of_procs (hp : s.procs p = some x) : view own s p = roleAt own (some x) := by
  rw [view, hp]

/-- A step that is one action of the lease. -/
theorem follow_act (b : Lease.Act ℕ) {x : Option Proc} {r : Lease.Role ℕ}
    (hb : Lease.step (view own s) b = some (Function.update (view own s) p r))
    (hx : roleAt own x = r) :
    ∃ bs, exec Lease.step (view own s) bs = some (view own (s.set p x)) := by
  refine ⟨[b], exec_cons.2 ⟨_, hb, ?_⟩⟩
  rw [exec_nil, view_set, hx]

/-- A process that is gone owns nothing. -/
theorem not_owner_of_gone (hq : ValidPid q) (hr : s.isProcessRunning q = false) :
    view own s q ≠ .owner := by
  intro hown
  obtain ⟨y, hy, -⟩ := view_owner.1 hown
  rw [isProcessRunning_eq hq, hy] at hr
  cases hr

/-- **A process's own step** is matched by the lease. -/
theorem lease_own (ho : Owning own) (hs : s.PidsOk) {x : Proc} (hp : s.procs p = some x)
    (hl : x = .begun → Lease.MayLook (view own s) (readPidFile s.file)) (h : Own s p x s') :
    ∃ bs, exec Lease.step (view own s) bs = some (view own s') := by
  have hv : view own s p = roleAt own (some x) := view_of_procs hp
  have hout : ∀ y : Proc, y.inWindow = false → y.checking = false →
      ∃ bs, exec Lease.step (view own s) bs = some (view own (s.set p (some y))) := by
    intro y hy hc
    exact follow_set _ (Or.inr (ho.roleAt_out hy hc))
  have hlater : ∀ y : Proc, x.inWindow = true → y.inWindow = true → (own y = true → own x = true) →
      ∃ bs, exec Lease.step (view own s) bs = some (view own (s.set p (some y))) := by
    intro y hx hy hxy
    refine follow_set _ ?_
    rw [hv]
    exact roleAt_later hx hy hxy
  cases h with
  | read_none hr =>
    have hm : Lease.MayLook (view own s) none := hr ▸ hl rfl
    exact follow_act (.look p none) (if_pos hm) (ho.roleAt_check rfl)
  | read_some q hr =>
    have hm : Lease.MayLook (view own s) (some q) := hr ▸ hl rfl
    exact follow_act (.look p (some q)) (if_pos hm) (ho.roleAt_check rfl)
  | gone q hr =>
    have hlook : view own s p = .looking q := hv.trans (ho.roleAt_check rfl)
    have hq : view own s q ≠ .owner := not_owner_of_gone (hs.read p _ q hp rfl) hr
    exact follow_act (.pass p) (if_pos ⟨q, hlook, hq⟩) (ho.roleAt_check rfl)
  | clear =>
    -- it was clear to go on before it removed the file
    have hstale : view own s.removePidFile p = roleAt own (some .stale) := hv
    refine follow_set (s := s.removePidFile) _ (Or.inl ?_)
    rw [hstale, ho.roleAt_check rfl, ho.roleAt_check rfl]
    rfl
  | write =>
    have hclear : view own s p = .clear := hv.trans (ho.roleAt_check rfl)
    exact follow_act (s := { s with file := some (writePidFile p) }) (.take p) (if_pos hclear)
      (if_pos ho.written)
  | serve => exact hlater _ rfl rfl fun _ => ho.written
  | drain => exact hlater _ rfl rfl ho.draining
  | remove => exact hlater _ rfl rfl ho.removed
  | exit | stop_exit => exact follow_set _ (Or.inr rfl)
  | stop_kill q hr =>
    -- the `stop` moves on, and then its target
    rw [kill_eq (hs.read p _ q hp rfl)]
    obtain ⟨bs, hb⟩ := hout .stopKilled rfl rfl
    obtain ⟨cs, hc⟩ := follow_sigterm ho (s.set p (some .stopKilled)) q
    exact ⟨bs ++ cs, exec_append.2 ⟨_, hb, hc⟩⟩
  | _ => exact hout _ rfl rfl

/-- **One step of the processes** is matched by the lease. -/
theorem lease_step (ho : Owning own) (hs : s.PidsOk) (hl : MayRead own s a)
    (h : s.step a = some s') : ∃ bs, exec Lease.step (view own s) bs = some (view own s') := by
  rcases step_cases h with ⟨p, program, -, -, -, rfl⟩ | ⟨p, x, rfl, hp, hx⟩ | ⟨p, b, -, hp, rfl⟩ |
    ⟨p, -, -, rfl⟩
  · refine follow_set _ (Or.inr ?_)
    cases program <;> exact ho.roleAt_out rfl rfl
  · refine lease_own ho hs hp (fun hb => hl p rfl ?_) hx
    rw [hp, hb]
  · refine follow_set _ ?_
    rw [view_of_procs hp]
    refine roleAt_later rfl rfl fun hd => ?_
    cases b with
    | false => exact ho.signalled (ho.draining hd)
    | true => exact ho.draining hd
  · exact follow_set _ (Or.inr rfl)

/-! ## At most one daemon -/

/-- A `start` reads the file while no other one is between its check and its write. -/
def ReadsAlone (s : System) (a : Act) : Prop :=
  ∀ p, a = .own p → s.procs p = some .begun → ∀ r x, s.procs r = some x → x.checking = false

/-- Process `p` is between its write and its exit. -/
def InWindow (s : System) (p : ℕ) : Prop := ∃ x, s.procs p = some x ∧ x.inWindow = true

/-- A `start` that reads the file while some process is between its write and its exit
finds such a process named. -/
def NamesWindow (s : System) (a : Act) : Prop :=
  ∀ p, a = .own p → s.procs p = some .begun → ∀ r, s.InWindow r →
    ∃ q, readPidFile s.file = some q ∧ s.InWindow q

/-- **At most one process is between its write and its exit.** -/
def AtMostOne (s : System) : Prop :=
  ∀ p q x y, s.procs p = some x → s.procs q = some y → x.inWindow = true → y.inWindow = true → p = q

theorem owning_window : Owning Proc.inWindow where
  written := rfl
  window := fun _ h => h
  signalled := fun _ => rfl
  draining := fun _ => rfl
  removed := fun _ => rfl

theorem not_checks_of_readsAlone (ho : Owning own) (hr : s.ReadsAlone a) {p : ℕ} (ha : a = .own p)
    (hp : s.procs p = some .begun) (r : ℕ) : ¬ (view own s r).checks := by
  intro hc
  obtain ⟨x, hx, hcx⟩ := (view_checks ho).1 hc
  rw [hr p ha hp r x hx] at hcx
  cases hcx

theorem Initial.view (hs : s.Initial) : view own s = fun _ => .out := by
  funext p
  rw [System.view, hs.1 p]
  rfl

/-- **The processes run a lease**, where every `start` reads alone and finds the window
named. -/
theorem daemon_refines_lease {s₀ : System} (h₀ : s₀.Initial) {as : List Act}
    (hr : Along step (fun s a => s.ReadsAlone a ∧ s.NamesWindow a) s₀ as)
    (h : exec step s₀ as = some s) :
    ∃ bs, exec Lease.step (fun _ => .out) bs = some (view Proc.inWindow s) := by
  have hstep : ∀ s a s' v, (s.PidsOk ∧ v = view Proc.inWindow s ∧ Lease.Inv v) →
      (s.ReadsAlone a ∧ s.NamesWindow a) → step s a = some s' →
      ∃ bs v', exec Lease.step v bs = some v' ∧
        s'.PidsOk ∧ v' = view Proc.inWindow s' ∧ Lease.Inv v' := by
    rintro s a s' v ⟨hs, rfl, hv⟩ ⟨halone, hnames⟩ hst
    have hl : MayRead Proc.inWindow s a := by
      intro p ha hp
      refine ⟨not_checks_of_readsAlone owning_window halone ha hp, fun r hr => ?_⟩
      -- there is one owner only, so the process that the file names is `r`
      obtain ⟨q, hfile, hq⟩ := hnames p ha hp r (view_owner.1 hr)
      have hqr : q = r := hv.owner q r (view_owner.2 hq) hr
      rw [hfile, hqr]
    obtain ⟨bs, hb⟩ := lease_step owning_window hs hl hst
    exact ⟨bs, _, hb, pidsOk_step hs hst, rfl, exec_inv_all (fun _ _ _ => Lease.step_inv) hv hb⟩
  obtain ⟨bs, v, hb, -, rfl, -⟩ := exec_sim hstep ⟨h₀.pidsOk, h₀.view.symm, Lease.inv_out⟩ hr h
  exact ⟨bs, hb⟩

/-- **A single daemon**, in every state of a run whose `start`s read alone and find the
window named. -/
theorem single_daemon {s₀ : System} (h₀ : s₀.Initial) {as : List Act}
    (hr : Along step (fun s a => s.ReadsAlone a ∧ s.NamesWindow a) s₀ as) :
    ∀ s ∈ visited step s₀ as, s.AtMostOne := by
  intro s hs p q x y hp hq hx hy
  obtain ⟨bs, cs, rfl, hb⟩ := visited_prefix hs
  obtain ⟨ls, hls⟩ := daemon_refines_lease h₀ hr.prefix hb
  exact Lease.unique hls (view_owner.2 ⟨x, hp, hx⟩) (view_owner.2 ⟨y, hq, hy⟩)

/-- No process and no PID file. -/
def empty : System := ⟨fun _ => none, none⟩

theorem initial_empty : empty.Initial := ⟨fun _ => rfl, fun _ h => by cases h⟩

/-- A `start` of process `p`, up to its write. -/
def startRun (p : ℕ) : List Act := [.spawn p .start, .own p, .own p]

/-- The only read of a run that begins with one `start`. -/
theorem along_startRun {ok : System → Act → Prop} (hok : ∀ s a, (∀ p, a ≠ .own p) → ok s a)
    (hread : ok (empty.set 1 (some .begun)) (.own 1))
    (hrest : ok (empty.set 1 (some .begun) |>.set 1 (some .cleared)) (.own 1)) :
    Along step ok empty (startRun 1) := by
  have h1 : empty.step (.spawn 1 .start) = some (empty.set 1 (some .begun)) := rfl
  have h2 : step (empty.set 1 (some .begun)) (.own 1) =
      some ((empty.set 1 (some .begun)).set 1 (some .cleared)) := rfl
  refine (along_cons h1).2 ⟨hok _ _ (by simp), (along_cons h2).2 ⟨hread, hrest, fun s' _ => ?_⟩⟩
  exact along_nil s'

theorem begun_of_set {r : ℕ} {x : Proc} (h : (empty.set 1 (some .begun)).procs r = some x) :
    x = .begun := by
  by_cases h1 : r = 1
  · rw [h1, set_procs_self] at h
    exact (Option.some.inj h).symm
  · rw [set_procs_ne _ _ h1] at h
    cases h

theorem single_daemon_start :
    ∃ s, exec step empty (startRun 1) = some s ∧ s.procs 1 = some .written ∧ s.AtMostOne := by
  refine ⟨_, rfl, rfl, single_daemon initial_empty (along_startRun ?_ ?_ ?_) _ (exec_mem_visited rfl)⟩
  · exact fun s a ha => ⟨fun p h => absurd h (ha p), fun p h => absurd h (ha p)⟩
  · refine ⟨fun p _ _ r x hr => ?_, fun p _ _ r ⟨x, hr, hw⟩ => ?_⟩
    · rw [begun_of_set hr]
      rfl
    · rw [begun_of_set hr] at hw
      cases hw
  · refine ⟨fun p hp hb => ?_, fun p hp hb => ?_⟩ <;> cases hp <;> cases hb

/-- Two `start`s that both read before either writes. -/
def twoStarts : List Act := [.spawn 1 .start, .spawn 2 .start, .own 1, .own 2, .own 1, .own 2]

/-- Both have written their PID. -/
theorem two_starts_overlap : empty.Initial ∧ ∃ s, exec step empty twoStarts = some s ∧
    s.procs 1 = some .written ∧ s.procs 2 = some .written ∧ ¬ s.AtMostOne := by
  refine ⟨initial_empty, _, rfl, rfl, rfl, fun h => ?_⟩
  exact absurd (h 1 2 _ _ rfl rfl rfl rfl) (by decide)

/-- A `start` while daemon 1, whose file a `stop` has removed, still drains. -/
example : ∃ s, exec step empty (startRun 1 ++ [.own 1, .spawn 2 .stop, .own 2, .own 2, .own 2, .own 2,
      .own 1] ++ [.spawn 3 .start, .own 3, .own 3]) = some s ∧
    s.procs 1 = some .draining ∧ s.procs 3 = some .written :=
  ⟨_, rfl, rfl, rfl⟩

end System

end Retrotls
