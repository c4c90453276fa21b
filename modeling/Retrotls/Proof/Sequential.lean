import Retrotls.Proof.Agree
import Retrotls.Proof.PidOwner
import Retrotls.Lib.Trace

/-!
# A process alone

`Spec/Run` follows one process from its command line to its end, and is told what the
outside answers. `Spec/Daemon` interleaves the steps of many processes, and answers by what
there is. Here the two meet: **a run of `run` is a run of the system** in which this process
alone takes steps (`run_in_system`).
-/

namespace Retrotls

namespace System

variable {s : System} {p : ℕ} {dies : Bool}

/-- The steps of process `p`, and of nobody else; it dies only if `dies`. -/
def stepOf (p : ℕ) (dies : Bool) (s : System) (a : Act) : Option System :=
  if a = .own p ∨ a = .signal p ∨ (a = .die p ∧ dies = true) then s.step a else none

/-- Process `p` is now `x`, and the file is this; nobody else has changed. -/
structure Moved (s : System) (p : ℕ) (file : Option Str) (x : Option Proc) (t : System) : Prop where
  self : t.procs p = x
  file : t.file = file
  others : ∀ q ≠ p, t.procs q = s.procs q

theorem Moved.trans {file file' : Option Str} {x y : Option Proc} {t u : System}
    (h : Moved s p file x t) (h' : Moved t p file' y u) : Moved s p file' y u :=
  ⟨h'.self, h'.file, fun q hq => (h'.others q hq).trans (h.others q hq)⟩

theorem moved_set (s : System) (p : ℕ) (file : Option Str) (x : Option Proc) :
    Moved s p file x ({ s with file := file }.set p x) :=
  ⟨set_procs_self _ p x, rfl, fun _ hq => set_procs_ne { s with file := file } x hq⟩

/-- The processes there are stay while process `p` moves on. -/
theorem Moved.kill0 {file : Option Str} {x y : Proc} {t : System} (h : Moved s p file (some y) t)
    (hp : s.procs p = some x) (target : ℤ) : t.kill0 target = s.kill0 target := by
  have hsome : ∀ q, (t.procs q).isSome = (s.procs q).isSome := by
    intro q
    by_cases hq : q = p
    · rw [hq, h.self, hp]
      rfl
    · rw [h.others q hq]
  rw [System.kill0, System.kill0, hsome]

theorem stepOf_own {x : Proc} (hp : s.procs p = some x) : stepOf p dies s (.own p) = s.own p x := by
  rw [stepOf, if_pos (Or.inl rfl), step, hp]
  rfl

/-- A step of process `p`, and what can be reached then. -/
theorem reaches_own {f file' : Option Str} {x : Proc} {y z : Option Proc} (hp : s.procs p = some x)
    (h : s.own p x = some ({ s with file := f }.set p y))
    (hr : ∀ t, Moved s p f y t → Reaches (stepOf p dies) t (Moved t p file' z)) :
    Reaches (stepOf p dies) s (Moved s p file' z) := by
  have hmoved := moved_set s p f y
  exact .cons ((stepOf_own hp).trans h) ((hr _ hmoved).trans fun u hu => .here (hmoved.trans hu))

/-- The last step of a process. -/
theorem reaches_exit {x : Proc} (hp : s.procs p = some x) (h : s.own p x = some (s.set p none))
    {file : Option Str} (hf : s.file = file) : Reaches (stepOf p dies) s (Moved s p file none) :=
  .cons ((stepOf_own hp).trans h) (.here (hf ▸ moved_set s p s.file none))

theorem reaches_die {x : Proc} (hp : s.procs p = some x) :
    Reaches (stepOf p true) s (Moved s p s.file none) := by
  have hstep : stepOf p true s (.die p) = some (s.set p none) := by
    rw [stepOf, if_pos (Or.inr (Or.inr ⟨rfl, rfl⟩)), step, hp]
    rfl
  exact .cons hstep (.here (moved_set s p s.file none))

/-! ## `start` -/

/-- A daemon drains, removes its file and exits. -/
theorem reaches_drained (hp : s.procs p = some .draining) :
    Reaches (stepOf p dies) s (Moved s p none none) := by
  refine reaches_own (f := none) hp rfl fun t ht => ?_
  exact reaches_exit ht.self rfl ht.file

/-- A daemon serves until it is signalled. -/
theorem reaches_signalled {file : Option Str} (hp : s.procs p = some .written)
    (hr : ∀ t, Moved s p s.file (some .draining) t → Reaches (stepOf p dies) t (Moved t p file none)) :
    Reaches (stepOf p dies) s (Moved s p file none) := by
  refine reaches_own (f := s.file) hp rfl fun t ht => ?_
  have hstep : stepOf p dies t (.signal p) = some (t.set p (some .draining)) := by
    rw [stepOf, if_pos (Or.inr (Or.inl rfl)), step, ht.self]
  have hmoved := moved_set t p t.file (some .draining)
  refine .cons hstep ((hr _ (ht.trans (ht.file ▸ hmoved))).trans fun u hu => .here (hmoved.trans hu))

/-- `start`, where it finds no process with the PID that it reads. -/
theorem reaches_cleared {q : ℕ} {file : Option Str} (hp : s.procs p = some .begun)
    (hq : readPidFile s.file = some q) (hk : s.kill0 (asI32 q) = false)
    (hr : ∀ t, Moved s p none (some .cleared) t → Reaches (stepOf p dies) t (Moved t p file none)) :
    Reaches (stepOf p dies) s (Moved s p file none) := by
  refine reaches_own (f := s.file) (y := some (.probing q)) hp (by simp [own, hq]) fun t ht => ?_
  have hkt : t.isProcessRunning q = false := (ht.kill0 hp _).trans hk
  refine reaches_own (f := t.file) (y := some .stale) ht.self (by simp [own, hkt]) fun u hu => ?_
  refine reaches_own (f := none) hu.self rfl fun v hv => ?_
  exact hr v ((ht.trans hu).trans hv)

/-- `start`, where it reads no PID. -/
theorem reaches_unread {file : Option Str} (hp : s.procs p = some .begun) (hq : readPidFile s.file = none)
    (hr : ∀ t, Moved s p s.file (some .cleared) t → Reaches (stepOf p dies) t (Moved t p file none)) :
    Reaches (stepOf p dies) s (Moved s p file none) :=
  reaches_own (f := s.file) hp (by simp [own, hq]) hr

/-- `start`, where it finds one. -/
theorem reaches_running {q : ℕ} (hp : s.procs p = some .begun) (hq : readPidFile s.file = some q)
    (hk : s.kill0 (asI32 q) = true) : Reaches (stepOf p dies) s (Moved s p s.file none) := by
  refine reaches_own (f := s.file) (y := some (.probing q)) hp (by simp [own, hq]) fun t ht => ?_
  have hkt : t.isProcessRunning q = true := (ht.kill0 hp _).trans hk
  refine reaches_own (f := t.file) (y := some .ending) ht.self (by simp [own, hkt]) fun u hu => ?_
  exact reaches_exit hu.self rfl (hu.file.trans ht.file)

/-! ## `stop` -/

theorem reaches_not_running (hp : s.procs p = some .stopBegun) (hq : readPidFile s.file = none) :
    Reaches (stepOf p dies) s (Moved s p s.file none) := by
  refine reaches_own (f := s.file) (y := some .ending) hp (by simp [own, hq]) fun t ht => ?_
  exact reaches_exit ht.self rfl ht.file

theorem reaches_stop_gone {q : ℕ} (hp : s.procs p = some .stopBegun) (hq : readPidFile s.file = some q)
    (hk : s.kill0 (asI32 q) = false) : Reaches (stepOf p dies) s (Moved s p none none) := by
  refine reaches_own (f := s.file) (y := some (.stopRead q)) hp (by simp [own, hq]) fun t ht => ?_
  have hkt : t.isProcessRunning q = false := (ht.kill0 hp _).trans hk
  refine reaches_own (f := t.file) (y := some .stopDead) ht.self (by simp [own, hkt]) fun u hu => ?_
  refine reaches_own (f := none) (y := some .ending) hu.self rfl fun v hv => ?_
  exact reaches_exit hv.self rfl hv.file

/-- The process that is signalled, and nobody else besides process `p`. -/
theorem reaches_stop_kill {q : ℕ} (hp : s.procs p = some .stopBegun)
    (hq : readPidFile s.file = some q) (hk : s.kill0 (asI32 q) = true) (hne : (asI32 q).toNat ≠ p) :
    Reaches (stepOf p dies) s fun t => t.procs p = none ∧ t.file = none ∧
      ∀ r ≠ p, t.procs r = if r = (asI32 q).toNat then (s.procs r).bind Proc.sigterm else s.procs r := by
  -- the check, before the signal
  have h₁ := moved_set s p s.file (some (.stopRead q))
  refine .cons ((stepOf_own hp).trans (by simp [own, hq] : _ = some (s.set p (some (.stopRead q))))) ?_
  set s₁ := s.set p (some (.stopRead q)) with hs₁
  have hrun : s₁.isProcessRunning q = true := (h₁.kill0 hp _).trans hk
  have h₂ := moved_set s₁ p s₁.file (some (.stopAlive q))
  refine .cons ((stepOf_own h₁.self).trans (by simp [own, hrun] : _ = some (s₁.set p (some (.stopAlive q))))) ?_
  set s₂ := s₁.set p (some (.stopAlive q)) with hs₂
  have hkill : s₂.kill0 (asI32 q) = true := (h₂.kill0 h₁.self _).trans hrun
  -- the signal
  have hown : s₂.own p (.stopAlive q) = some ((s₂.set p (some .stopKilled)).kill (asI32 q)) := by
    simp [own, hkill]
  refine .cons ((stepOf_own h₂.self).trans hown) ?_
  set s₃ := (s₂.set p (some .stopKilled)).kill (asI32 q) with hs₃
  have hself : s₃.procs p = some .stopKilled := by
    rw [hs₃, System.kill, set_procs_ne _ _ (Ne.symm hne), set_procs_self]
  have hothers : ∀ r ≠ p, s₃.procs r =
      if r = (asI32 q).toNat then (s.procs r).bind Proc.sigterm else s.procs r := by
    intro r hr
    have hsame : (s₂.set p (some .stopKilled)).procs r = s.procs r := by
      rw [set_procs_ne _ _ hr, h₂.others r hr, h₁.others r hr]
    by_cases hrq : r = (asI32 q).toNat
    · rw [if_pos hrq, hs₃, System.kill, ← hrq, set_procs_self, hsame]
    · rw [if_neg hrq, hs₃, System.kill, set_procs_ne _ _ hrq, hsame]
  have hrest : Reaches (stepOf p dies) s₃ (Moved s₃ p none none) := by
    refine reaches_own (f := none) (y := some .ending) hself rfl fun t ht => ?_
    exact reaches_exit ht.self rfl ht.file
  exact hrest.trans fun t ht => .here ⟨ht.self, ht.file, fun r hr => (ht.others r hr).trans (hothers r hr)⟩

end System

namespace Run

open Retrotls.System

variable {env : Env} {cli : Cli} {files : Path → Entry} {path : Path} {s : System} {w : World}

/-- **What the outside answers is what the system does**, while nobody else takes a step:
`kill` finds the processes there are, the PID file can be removed, and once it is created it
is written. -/
structure Alone (env : Env) (files : Path → Entry) (s : System) : Prop where
  file : s.file = (files (pidFilePath env)).content
  kill : ∀ target signal, 0 < target → env.kill target signal = s.kill0 target
  write : env.writeAll (pidFilePath env) = none
  remove : env.remove (pidFilePath env) = none
  others : env.others = id

/-- The program of `Spec/Daemon` that a command line runs, if it touches the PID file. -/
def programOf (cli : Cli) : Option Program :=
  match cli.command with
  | some .stop => some .stop
  | some .version => none
  | some (.start _) | none => if cli.check then none else some .start

/-- What can be read in the PID file. -/
def pidContent (env : Env) (w : World) : Option Str := (w.files (pidFilePath env)).content

/-! ## What the parts leave in the PID file -/

theorem removed_content (hr : env.remove (pidFilePath env) = none) (w : World) :
    pidContent env (removed env w) = none := by
  unfold pidContent removed
  split
  · rename_i h
    rcases h with h | h
    · rw [h]
      rfl
    · exact absurd hr h
  · simp [Entry.content]

/-- **What a start leaves in the PID file**, past its check: what it found, if it has
not written; nothing, if it returns; its PID, if it ends before. -/
inductive Leaves (env : Env) (w : World) : Outcome AppError Unit → World → Prop
  | found {o : Outcome AppError Unit} {w' : World} (ho : o ≠ .ok ())
      (hc : pidContent env w' = pidContent env w) : Leaves env w o w'
  | returned {w' : World} (hc : pidContent env w' = none) : Leaves env w (.ok ()) w'
  | written {o : Outcome AppError Unit} {w' : World} (ho : o ≠ .ok ())
      (hc : pidContent env w' = some (Retrotls.writePidFile env.pid)) : Leaves env w o w'

theorem leaves_of_written {w' : World} {o : Outcome AppError Unit} (ho : o ≠ .ok ())
    (hw : Written env w') : Leaves env w o w' := by
  refine .written ho ?_
  rw [pidContent, hw.pidFile]
  rfl

/-- A line does not touch the PID file. -/
theorem logged_content (env : Env) (level : Level) (line : Str) (w : World) :
    pidContent env (logged env level line w) = pidContent env w := by
  have hpid : (logged env level line w).files (pidFilePath env) = w.files (pidFilePath env) := by
    unfold logged
    dsimp only
    split
    · exact if_neg (logFilePath_ne env).symm
    · rfl
  rw [pidContent, hpid]
  rfl

/-- From the signal on. -/
theorem signal_leaves (hr : env.remove (pidFilePath env) = none) (ho : env.others = id)
    (config : Config) {w' : World} (hw : Written env w') : (do
      waitForShutdownSignal env
      shutdown env config : Prog World AppError Unit).Ends w' (Leaves env w) := by
  refine Prog.ends_bind_ok (waitForShutdownSignal_served hw) fun w₁ hw₁ => ?_
  have hserved : ∀ {o : Outcome AppError Unit} {w₂ : World}, o ≠ .ok () → Served env w₂ →
      Leaves env w o w₂ := by
    intro o w₂ hne hw₂
    refine .written hne ?_
    rw [pidContent, hw₂.pidFile, ho]
    rfl
  unfold shutdown
  refine Prog.ends_bind_ok ⟨trace_ok _ _ w₁, trace_served _ _ w₁ hw₁⟩ fun w₂ hw₂ => ?_
  refine Prog.ends_bind_keeps (joinListeners_keeps 0 _) hw₂ (fun _ _ => hserved (by simp))
    (fun _ _ => hserved (by simp)) fun _ w₃ hw₃ => ?_
  refine Prog.ends_bind_ok (I := fun _ => True) ⟨drain_ok config w₃, trivial⟩ fun w₄ _ => ?_
  have hremove : (removePidFile env).Ends w₄ fun o w' => o = .ok () ∧ pidContent env w' = none := by
    unfold Prog.Ends
    rw [removePidFile_eq]
    exact ⟨rfl, removed_content hr w₄⟩
  refine Prog.ends_bind_ok hremove fun w₅ hw₅ => ?_
  unfold Prog.Ends
  rw [trace_eq]
  exact .returned ((logged_content env _ _ w₅).trans hw₅)

/-- From the load of the configuration on. -/
theorem load_leaves (hr : env.remove (pidFilePath env) = none) (ho : env.others = id) (cli : Cli)
    (path : Path) {w' : World} (hw : Written env w') : (do
      let config ← loadConfig env path
      Prog.ofExcept (config.validate env.http)
      initLogging env ((cli.logLevel.or config.logLevel).getD "info".toList)
      trace env .info "RetroTLS v1.4.0 starting...".toList
      serving env config : Prog World AppError Unit).Ends w' (Leaves env w) := by
  have hload : Prog.Keeps (Written env) (loadConfig env path) :=
    fun _ h => (loadConfig_ends h path).1
  have hlogging : ∀ level, Prog.Keeps (Written env) (initLogging env level) :=
    fun level _ h => (initLogging_ends h level).2
  have herr : ∀ (e : AppError) w₁, Written env w₁ → Leaves env w (.err e) w₁ :=
    fun _ _ => leaves_of_written (by simp)
  have hexit : ∀ (n : ℕ) w₁, Written env w₁ → Leaves env w (.exit n) w₁ :=
    fun _ _ => leaves_of_written (by simp)
  refine Prog.ends_bind_keeps hload hw herr hexit fun config w₁ hw₁ => ?_
  refine Prog.ends_bind_keeps (Prog.keeps_ofExcept _) hw₁ herr hexit fun _ w₂ hw₂ => ?_
  refine Prog.ends_bind_keeps (hlogging _) hw₂ herr hexit fun _ w₃ hw₃ => ?_
  refine Prog.ends_bind_keeps (trace_written _ _) hw₃ herr hexit fun _ w₄ hw₄ => ?_
  refine Prog.ends_bind_keeps (spawnListeners_written 0 _) hw₄ herr hexit fun _ w₅ hw₅ => ?_
  exact signal_leaves hr ho config hw₅

/-- **`write_pid_file`** in a start. -/
theorem writePidFile_cases {w₀ : World} (hw : Fresh env w₀ w) :
    ((writePidFile env env.pid).mapErr AppError.io).Ends w fun o w' =>
      Put env (pidFilePath env) (Retrotls.writePidFile env.pid) w o w' ∧
        (o = .ok () → Written env w') := by
  have hwritten : ((writePidFile env env.pid).mapErr AppError.io).Ends w fun o w' =>
      o = .ok () → Written env w' := by
    refine Prog.ends_mapErr.2 ((writePidFile_ends hw).mono ?_)
    rintro o w' (⟨-, hw', -⟩ | ⟨hne, -⟩) ho
    · exact hw'
    · cases o with
      | ok u => exact absurd rfl hne
      | err e => cases ho
      | exit n => cases ho
  exact (writePidFile_put env env.pid w).and hwritten

/-- From `write_pid_file` on. -/
theorem serve_leaves (hwrite : env.writeAll (pidFilePath env) = none)
    (hr : env.remove (pidFilePath env) = none) (ho : env.others = id) (cli : Cli)
    (path : Path) {w₀ : World} (hw : Fresh env w₀ w) :
    (serve env cli path).Ends w (Leaves env w) := by
  unfold serve
  refine Prog.ends_bind.2 ((writePidFile_cases hw).mono ?_)
  rintro o w' ⟨hput, hw'⟩
  cases hput with
  | whole _ _ => exact Prog.andThen_ok.2 (load_leaves hr ho cli path (hw' rfl))
  | part hcreatable hnot _ => exact absurd ⟨hcreatable, hwrite⟩ hnot
  | kept _ hfiles =>
    refine .found (by simp) ?_
    rw [pidContent, hfiles]
    rfl

/-- Past the check, in the background or in the foreground. -/
theorem rest_leaves (hwrite : env.writeAll (pidFilePath env) = none)
    (hr : env.remove (pidFilePath env) = none) (ho : env.others = id) (cli : Cli)
    (foreground : Bool) (path : Path) {w₀ : World} (hw : Fresh env w₀ w) :
    (if !foreground then (daemonize env).mapErr .io else serve env cli path).Ends w
      (Leaves env w) := by
  cases foreground with
  | true => exact serve_leaves hwrite hr ho cli path hw
  | false =>
    show ((daemonize env).mapErr AppError.io).Ends w _
    rw [Prog.ends_mapErr]
    unfold Prog.Ends daemonize
    cases env.currentExe with
    | some source => exact .found (by simp [Prog.throw, Outcome.mapErr]) rfl
    | none =>
      cases env.spawn with
      | some source => exact .found (by simp [Prog.throw, Outcome.mapErr]) rfl
      | none => exact .found (by simp [bind, emit, Prog.modify, Prog.exit, Outcome.mapErr]) rfl

theorem start_eq {w₁ : World} (h : checkRunning env w = (.ok (), w₁)) (foreground : Bool) :
    start env cli foreground path w =
      (if !foreground then (daemonize env).mapErr .io else serve env cli path) w₁ := by
  unfold start
  simp only [bind, h]

theorem start_err {w₁ : World} {e : AppError} (h : checkRunning env w = (.err e, w₁))
    (foreground : Bool) : start env cli foreground path w = (.err e, w₁) := by
  unfold start
  simp only [bind, h]

/-! ## The run of the system -/

/-- A run of the system that ends as the process does: it dies where it does not return. -/
def Matched (env : Env) (s : System) (r : Outcome AppError Unit × World) : Prop :=
  Reaches (stepOf env.pid (decide (r.1 ≠ .ok ()))) s
    (Moved s env.pid (pidContent env r.2) none)

/-- Past the check of a start. -/
theorem matched_rest {r : Outcome AppError Unit × World} (hp : s.procs env.pid = some .cleared)
    (hfile : s.file = pidContent env w) (h : Leaves env w r.1 r.2) : Matched env s r := by
  obtain ⟨o, w'⟩ := r
  unfold Matched
  cases h with
  | found ho hc =>
    rw [decide_eq_true ho, hc, ← hfile]
    exact reaches_die hp
  | returned hc =>
    rw [hc]
    refine reaches_own (f := some (Retrotls.writePidFile env.pid)) hp rfl fun t ht => ?_
    exact reaches_signalled ht.self fun u hu => reaches_drained hu.self
  | written ho hc =>
    rw [decide_eq_true ho, hc]
    refine reaches_own (f := some (Retrotls.writePidFile env.pid)) hp rfl fun t ht => ?_
    exact ht.file ▸ reaches_die ht.self

/-- The answers of `kill` for the PID that is recorded. -/
theorem Alone.kill_recorded (halone : Alone env files s) {q : ℕ} (hq : ValidPid q)
    (signal : Signal) : env.kill (asI32 q) signal = s.kill0 (asI32 q) := by
  refine halone.kill _ _ ?_
  rw [asI32_of_valid hq]
  exact_mod_cast hq.1

/-- **`start`.** -/
theorem start_in_system (halone : Alone env files s)
    (hvalid : ∀ q, recorded env files = some q → ValidPid q) (hp : s.procs env.pid = some .begun)
    (foreground : Bool) (path : Path) :
    Matched env s (start env cli foreground path ⟨files, []⟩) := by
  have hfresh : Fresh env ⟨files, []⟩ (checkRunning env ⟨files, []⟩).2 :=
    checkRunning_fresh _ ⟨by simp [PidWritten], by simp, fun _ _ => rfl⟩
  have hfile : s.file = pidContent env ⟨files, []⟩ := halone.file
  have hread : Retrotls.readPidFile s.file = recorded env files := by
    rw [hfile]
    rfl
  have hcheck := checkRunning_eq env ⟨files, []⟩
  cases hr : recorded env files with
  | none =>
    rw [show recorded env (⟨files, []⟩ : World).files = none from hr] at hcheck
    rw [hcheck] at hfresh
    rw [start_eq hcheck]
    rw [hr] at hread
    have hleaves := rest_leaves halone.write halone.remove halone.others cli foreground path hfresh
    refine reaches_unread hp hread fun t ht => ?_
    exact matched_rest ht.self (ht.file.trans hfile) hleaves
  | some q =>
    rw [show recorded env (⟨files, []⟩ : World).files = some q from hr] at hcheck
    rw [hr] at hread
    dsimp only at hcheck
    have hprobe := halone.kill_recorded (hvalid q hr) .probe
    cases hk : env.kill (asI32 q) .probe with
    | true =>
      rw [hk, if_pos rfl] at hcheck
      rw [start_err hcheck]
      have hk' : s.kill0 (asI32 q) = true := hprobe.symm.trans hk
      have hrun : Reaches (stepOf env.pid true) s (Moved s env.pid s.file none) :=
        reaches_running hp hread hk'
      rw [hfile] at hrun
      exact hrun
    | false =>
      rw [hk, if_neg (by simp)] at hcheck
      rw [hcheck] at hfresh
      rw [start_eq hcheck]
      have hk' : s.kill0 (asI32 q) = false := hprobe.symm.trans hk
      have hleaves := rest_leaves halone.write halone.remove halone.others cli foreground path hfresh
      refine reaches_cleared hp hread hk' fun t ht => ?_
      exact matched_rest ht.self (ht.file.trans (removed_content halone.remove _).symm) hleaves

theorem kill_mem_removed {target : ℤ} {signal : Signal} :
    .kill target signal ∈ (removed env w).log ↔ .kill target signal ∈ w.log := by
  unfold removed
  split
  · rfl
  · simp

/-- The end of a process in the system: it is gone, the file is as it has left it, and
who was sent a `SIGTERM` has got one. -/
structure EndsIn (env : Env) (s : System) (w : World) (t : System) : Prop where
  gone : t.procs env.pid = none
  file : t.file = pidContent env w
  others : ∀ q : ℕ, q ≠ env.pid → t.procs q =
    if .kill q .term ∈ w.log then (s.procs q).bind Proc.sigterm else s.procs q

theorem endsIn_moved {t : System} (h : Moved s env.pid (pidContent env w) none t)
    (hno : ∀ q : ℕ, .kill q .term ∉ w.log) : EndsIn env s w t where
  gone := h.self
  file := h.file
  others := fun q hq => by rw [if_neg (hno q), h.others q hq]

/-- **`stop`**, which is not recorded itself. -/
theorem stop_in_system {dies : Bool} (halone : Alone env files s)
    (hvalid : ∀ q, recorded env files = some q → ValidPid q)
    (hp : s.procs env.pid = some .stopBegun) (hself : recorded env files ≠ some env.pid) :
    Reaches (stepOf env.pid dies) s (EndsIn env s (stopDaemon env ⟨files, []⟩).2) := by
  have hfile : s.file = pidContent env ⟨files, []⟩ := halone.file
  have hread : Retrotls.readPidFile s.file = recorded env files := by
    rw [hfile]
    rfl
  have hstop := stopDaemon_eq env ⟨files, []⟩
  cases hr : recorded env files with
  | none =>
    rw [show recorded env (⟨files, []⟩ : World).files = none from hr] at hstop
    rw [hstop]
    rw [hr] at hread
    have hrun : Reaches (stepOf env.pid dies) s (Moved s env.pid s.file none) :=
      reaches_not_running hp hread
    rw [hfile] at hrun
    exact hrun.trans fun t ht => .here (endsIn_moved ht fun q => by simp)
  | some q =>
    rw [show recorded env (⟨files, []⟩ : World).files = some q from hr] at hstop
    dsimp only at hstop
    have hq := hvalid q hr
    have hprobe := halone.kill_recorded hq .probe
    have hterm := halone.kill_recorded hq .term
    rw [hr] at hread hself
    cases hk : s.kill0 (asI32 q) with
    | false =>
      rw [hprobe, hk, if_neg (by simp)] at hstop
      rw [hstop]
      have hrun : Reaches (stepOf env.pid dies) s (Moved s env.pid none none) :=
        reaches_stop_gone hp hread hk
      rw [← removed_content halone.remove] at hrun
      refine hrun.trans fun t ht => .here (endsIn_moved ht fun r => ?_)
      rw [kill_mem_removed]
      simp [World.add]
    | true =>
      rw [hprobe, hterm, hk, if_pos rfl, if_pos rfl] at hstop
      rw [hstop]
      -- the PID is one, and not that of this process
      have hcast : asI32 q = q := asI32_of_valid hq
      have hne : (asI32 q).toNat ≠ env.pid := by
        rw [hcast]
        intro h
        exact hself (congrArg some h)
      refine (reaches_stop_kill hp hread hk hne).trans ?_
      rintro t ⟨hgone, hnone, hothers⟩
      refine .here ⟨hgone, hnone.trans (removed_content halone.remove _).symm, fun r hr => ?_⟩
      rw [hothers r hr, hcast]
      have hmem : .kill (r : ℤ) .term ∈ (removed env ((((⟨files, []⟩ : World).add
          (.kill q .probe)).add (.kill q .term)).add (.print (stopLine q)))).log ↔
          r = (q : ℤ).toNat := by
        rw [kill_mem_removed]
        simp [World.add]
      simp only [hmem]

/-- What is run for a program of the system. -/
theorem programOf_cases {program : Program} (h : programOf cli = some program) :
    (program = .stop ∧ cli.command = some .stop ∧ run env cli = stopDaemon env) ∨
      (program = .start ∧ cli.command ≠ some .stop ∧
        ∃ foreground, run env cli = start env cli foreground (configPath env cli)) := by
  have hcheck : ∀ {program : Program}, (if cli.check then none else some Program.start) =
      some program → cli.check = false ∧ program = .start := by
    intro program hprog
    split at hprog
    · cases hprog
    · rename_i hno
      cases hprog
      exact ⟨by simpa using hno, rfl⟩
  unfold programOf at h
  unfold run
  rcases hc : cli.command with _ | foreground | _ | _ <;> rw [hc] at h
  · obtain ⟨hno, rfl⟩ := hcheck h
    rw [hno]
    exact Or.inr ⟨rfl, by simp, false, rfl⟩
  · obtain ⟨hno, rfl⟩ := hcheck h
    rw [hno]
    exact Or.inr ⟨rfl, by simp, foreground, rfl⟩
  · cases h
    exact Or.inl ⟨rfl, rfl, rfl⟩
  · cases h

/-- **A run alone is a run of the system**: a `start` or a `stop`, while nobody else takes
a step, ends in the system with the file that it leaves, and with the `SIGTERM`s that it has
sent. It dies on its way only where it does not return. The number in the file, if there is
one, is a process id; a `stop` whose own PID it is is left out, since it would signal
itself. -/
theorem run_in_system {program : Program} (hprog : programOf cli = some program)
    (halone : Alone env files s) (hvalid : ∀ q, recorded env files = some q → ValidPid q)
    (hp : s.procs env.pid = some program.entry)
    (hself : program = .stop → recorded env files ≠ some env.pid) :
    Reaches (stepOf env.pid (decide (outcome env cli files ≠ .ok ()))) s
      (EndsIn env s (run env cli ⟨files, []⟩).2) := by
  rcases programOf_cases hprog with ⟨rfl, hc, hrun⟩ | ⟨rfl, hc, foreground, hrun⟩
  · rw [hrun]
    exact stop_in_system halone hvalid hp (hself rfl)
  · have hmatched : Matched env s (start env cli foreground (configPath env cli) ⟨files, []⟩) :=
      start_in_system halone hvalid hp foreground (configPath env cli)
    rw [← hrun] at hmatched
    refine Reaches.trans hmatched fun t ht => .here (endsIn_moved ht fun q hq => ?_)
    have hterm := no_term hc hq
    cases hterm

/-- Process 4242 is a `stop`, and process 7 the daemon that it finds. -/
def stopSystem : System :=
  ⟨fun p => if p = 4242 then some .stopBegun else if p = 7 then some (.serving false) else none,
    some "7".toList⟩

def stopEnv : Env := { calm with kill := fun target _ => stopSystem.kill0 target }

theorem run_in_system_stop : outcome stopEnv stopCli (pidFileWith "7".toList) = .ok () ∧
    Reaches (stepOf 4242 (decide (outcome stopEnv stopCli (pidFileWith "7".toList) ≠ .ok ())))
      stopSystem (EndsIn stopEnv stopSystem (run stopEnv stopCli ⟨pidFileWith "7".toList, []⟩).2) := by
  have halone : Alone stopEnv (pidFileWith "7".toList) stopSystem :=
    ⟨by decide +kernel, fun _ _ _ => rfl, rfl, rfl, rfl⟩
  have hrecorded : recorded stopEnv (pidFileWith "7".toList) = some 7 := by decide +kernel
  have hvalid : ∀ q, recorded stopEnv (pidFileWith "7".toList) = some q → ValidPid q := by
    rw [hrecorded]
    rintro _ ⟨rfl⟩
    decide
  have hself : recorded stopEnv (pidFileWith "7".toList) ≠ some 4242 := by
    rw [hrecorded]
    decide
  exact ⟨by decide +kernel, run_in_system rfl halone hvalid rfl fun _ => hself⟩

end Run

end Retrotls
