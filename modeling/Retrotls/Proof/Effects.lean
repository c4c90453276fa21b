import Retrotls.Proof.Startup

/-!
# What the parts of `run` do to the outside

`LogInv I A` says that `I` is about what the process has done, and that effects in `A`
keep it.

* `LogInv.serve`, `LogInv.check`: a start that serves, and a check, neither signal nor
  spawn.
* `checkRunning_eq`, `stopDaemon_eq`: what `run` does with the PID that is recorded.
* `run_logAll`: what a whole run does.
-/

namespace Retrotls

/-- What changes files and directories. -/
def Effect.isFile : Effect → Bool
  | .createDirAll _ => true
  | .write _ _ => true
  | .writePart _ _ => true
  | .openAppend _ => true
  | .append _ _ => true
  | .remove _ => true
  | _ => false

/-- What a serving process does: it neither signals, nor spawns, nor prints. -/
def Effect.isServing : Effect → Bool
  | .kill _ _ => false
  | .spawn _ => false
  | .print _ => false
  | _ => true

theorem Effect.isServing_of_isFile {e : Effect} (h : e.isFile = true) : e.isServing = true := by
  cases e <;> first | rfl | cases h

namespace Run

variable {env : Env} {w : World} {path : Path} {P : Effect → Prop} {I : World → Prop}
  {A B : Effect → Bool}

/-- **An invariant of the log** that effects in `A` keep. -/
structure LogInv (I : World → Prop) (A : Effect → Bool) : Prop where
  files : ∀ w files, I w → I ⟨files, w.log⟩
  add : ∀ w e, A e = true → I w → I (w.add e)

/-- All that the process has done meets `P`. -/
def LogAll (P : Effect → Prop) (w : World) : Prop := ∀ e ∈ w.log, P e

theorem add_logAll {e : Effect} (hw : LogAll P w) (he : P e) : LogAll P (w.add e) := by
  intro e' he'
  rcases List.mem_append.1 he' with h | h
  · exact hw e' h
  · rw [List.mem_singleton.1 h]
    exact he

theorem logInv_logAll (hP : ∀ e, A e = true → P e) : LogInv (LogAll P) A :=
  ⟨fun _ _ hw => hw, fun _ e he hw => add_logAll hw (hP e he)⟩

/-- What the process has done, it has done. -/
theorem logInv_mem (e : Effect) : LogInv (fun w => e ∈ w.log) A :=
  ⟨fun _ _ hw => hw, fun _ _ _ hw => List.mem_append_left _ hw⟩

namespace LogInv

theorem mono (hI : LogInv I A) (h : ∀ e, B e = true → A e = true) : LogInv I B :=
  ⟨hI.files, fun w e he => hI.add w e (h e he)⟩

theorem emit {ε : Type} {e : Effect} (hI : LogInv I A) (he : A e = true) :
    Prog.Keeps I (emit e : Prog World ε Unit) := fun w => hI.add w e he

theorem setEntry {ε : Type} (hI : LogInv I A) (path : Path) (entry : Entry) :
    Prog.Keeps I (setEntry path entry : Prog World ε Unit) := fun w => hI.files w _

section Files

variable (hI : LogInv I Effect.isFile)

include hI

theorem createParent (path : Path) : Prog.Keeps I (createParent env path) :=
  createParent_keeps (fun _ => hI.emit rfl) path

theorem write (path : Path) (content : Str) : Prog.Keeps I (write env path content) :=
  write_keeps (hI.setEntry _ _) (fun _ => hI.setEntry _ _) (fun _ => hI.emit rfl) (hI.emit rfl)

theorem openAppend (path : Path) : Prog.Keeps I (openAppend env path) := by
  unfold Run.openAppend
  split
  · exact Prog.keeps_throw _
  · exact Prog.keeps_bind Prog.keeps_get fun _ =>
      Prog.keeps_bind (hI.setEntry _ _) fun _ => hI.emit rfl

theorem trace (level : Level) (line : Str) : Prog.Keeps I (trace env level line) :=
  trace_keeps (fun _ => hI.setEntry _ _) (fun _ => hI.emit rfl) level line

theorem removePidFile : Prog.Keeps I (removePidFile env) :=
  removePidFile_keeps (hI.setEntry _ _) (hI.emit rfl)

theorem writePidFile (pid : ℕ) : Prog.Keeps I (writePidFile env pid) :=
  Prog.keeps_bind (hI.createParent _) fun _ => hI.write _ _

theorem loadConfig (path : Path) : Prog.Keeps I (loadConfig env path) := by
  have hcreate : Prog.Keeps I (createDefaultConfig env path) :=
    Prog.keeps_bind (Prog.keeps_mapErr _ (hI.createParent _)) fun _ =>
      Prog.keeps_mapErr _ (hI.write _ _)
  intro w hw
  rw [loadConfig_eq]
  split
  · exact Prog.keeps_bind hcreate (fun _ => Prog.keeps_exit 0) w hw
  · split
    · exact hw
    · exact hw
  · exact hw

theorem shutdown (config : Config) : Prog.Keeps I (shutdown env config) :=
  Prog.keeps_bind (hI.trace _ _) fun _ => Prog.keeps_bind (joinListeners_keeps 0 _) fun _ =>
    Prog.keeps_bind (drain_keeps hI.trace config) fun _ =>
      Prog.keeps_bind hI.removePidFile fun _ => hI.trace _ _

end Files

section Serving

variable (hI : LogInv I Effect.isServing)

include hI

theorem initLogging (level : Str) : Prog.Keeps I (initLogging env level) := by
  have hfile : LogInv I Effect.isFile := hI.mono fun _ => Effect.isServing_of_isFile
  exact Prog.keeps_bind (Prog.keeps_ignore (hfile.createParent _)) fun _ =>
    Prog.keeps_bind (Prog.keeps_ignore (hfile.openAppend _)) fun _ => hI.emit rfl

theorem spawnListeners (idx : ℕ) (listeners : List ListenerConfig) :
    Prog.Keeps I (spawnListeners env idx listeners) :=
  spawnListeners_keeps (fun _ => hI.emit rfl)
    (hI.mono fun _ => Effect.isServing_of_isFile).trace idx listeners

theorem waitForShutdownSignal : Prog.Keeps I (waitForShutdownSignal env) :=
  Prog.keeps_bind (hI.emit rfl) fun _ => Prog.keeps_bind Prog.keeps_get fun _ => hI.setEntry _ _

theorem serving (config : Config) : Prog.Keeps I (serving env config) :=
  Prog.keeps_bind (hI.spawnListeners 0 _) fun _ => Prog.keeps_bind hI.waitForShutdownSignal fun _ =>
    (hI.mono fun _ => Effect.isServing_of_isFile).shutdown config

/-- **A start that serves does nothing else.** -/
theorem serve (cli : Cli) (path : Path) : Prog.Keeps I (serve env cli path) := by
  have hfile : LogInv I Effect.isFile := hI.mono fun _ => Effect.isServing_of_isFile
  unfold Run.serve
  refine Prog.keeps_bind (Prog.keeps_mapErr _ (hfile.writePidFile _)) fun _ => ?_
  refine Prog.keeps_bind (hfile.loadConfig path) fun config => ?_
  refine Prog.keeps_bind (Prog.keeps_ofExcept _) fun _ => ?_
  refine Prog.keeps_bind (hI.initLogging _) fun _ => ?_
  exact Prog.keeps_bind (hfile.trace _ _) fun _ => hI.serving config

/-- **A check** only prints besides. -/
theorem check (hprint : ∀ line, Prog.Keeps I (Run.emit (.print line) : Prog World AppError Unit))
    (path : Path) : Prog.Keeps I (check env path) := by
  have hfile : LogInv I Effect.isFile := hI.mono fun _ => Effect.isServing_of_isFile
  unfold Run.check
  refine Prog.keeps_bind (hfile.loadConfig path) fun config => ?_
  exact Prog.keeps_bind (Prog.keeps_ofExcept _) fun _ => hprint _

end Serving

end LogInv

/-! ## The recorded PID -/

/-- The PID that is recorded in the PID file. -/
def recorded (env : Env) (files : Path → Entry) : Option ℕ :=
  Retrotls.readPidFile (files (pidFilePath env)).content

/-- The state after `remove_pid_file`. -/
def removed (env : Env) (w : World) : World :=
  if w.files (pidFilePath env) = .absent ∨ env.remove (pidFilePath env) ≠ none then w
  else ⟨fun p => if p = pidFilePath env then .absent else w.files p,
    w.log ++ [.remove (pidFilePath env)]⟩

theorem removePidFile_eq (env : Env) (w : World) :
    removePidFile env w = (.ok (), removed env w) := by
  unfold removePidFile removeFile removed Prog.ignore
  simp only [bind, Prog.get]
  by_cases hf : w.files (pidFilePath env) = .absent
  · simp only [hf, if_true, true_or]
    rfl
  · cases hr : env.remove (pidFilePath env) with
    | none =>
      have hkeep : ¬ (w.files (pidFilePath env) = .absent ∨ (none : Option IoError) ≠ none) := by
        rintro (h | h)
        · exact hf h
        · exact h rfl
      rw [if_neg hf, if_neg hkeep]
      rfl
    | some source =>
      rw [if_neg hf, if_pos (Or.inr (by simp))]
      rfl

theorem readPidFile_eq (env : Env) (w : World) :
    readPidFile env w = (.ok (recorded env w.files), w) := by
  unfold readPidFile readToString recorded
  simp only [bind, Prog.get, pure]
  cases w.files (pidFilePath env) <;> rfl

/-- **The check whether a daemon is running**, by the PID that is recorded. -/
theorem checkRunning_eq (env : Env) (w : World) : checkRunning env w =
    match recorded env w.files with
    | none => (.ok (), w)
    | some pid =>
      if env.kill (asI32 pid) .probe then
        (.err (.alreadyRunning pid), w.add (.kill (asI32 pid) .probe))
      else (.ok (), removed env (w.add (.kill (asI32 pid) .probe))) := by
  unfold checkRunning
  simp only [bind, readPidFile_eq]
  cases recorded env w.files with
  | none => rfl
  | some pid =>
    simp only [isProcessRunning, kill, emit, bind, Prog.modify, pure]
    cases env.kill (asI32 pid) .probe with
    | true => rfl
    | false => exact removePidFile_eq env _

/-- What `stop_daemon` prints. -/
def stopLine (pid : ℕ) : Str :=
  "RetroTLS daemon stop signal sent (PID: ".toList ++ decimal pid ++ [')']

/-- **`stop_daemon`**, by the PID that is recorded. -/
theorem stopDaemon_eq (env : Env) (w : World) : stopDaemon env w =
    match recorded env w.files with
    | none => (.err .notRunning, w)
    | some pid =>
      if env.kill (asI32 pid) .probe then
        if env.kill (asI32 pid) .term then
          (.ok (), removed env (((w.add (.kill (asI32 pid) .probe)).add
            (.kill (asI32 pid) .term)).add (.print (stopLine pid))))
        else
          (.err (.configValidation ("Failed to send signal to process ".toList ++ decimal pid)),
            (w.add (.kill (asI32 pid) .probe)).add (.kill (asI32 pid) .term))
      else (.err .notRunning, removed env (w.add (.kill (asI32 pid) .probe))) := by
  unfold stopDaemon
  simp only [bind, readPidFile_eq]
  cases recorded env w.files with
  | none => rfl
  | some pid =>
    simp only [isProcessRunning, kill, emit, bind, Prog.modify, pure]
    cases env.kill (asI32 pid) .probe with
    | false =>
      simp only [removePidFile_eq]
      rfl
    | true =>
      cases env.kill (asI32 pid) .term with
      | false => rfl
      | true =>
        simp only [removePidFile_eq]
        rfl

/-! ## Whole runs -/

theorem removed_logAll (hw : LogAll P w) (hP : P (.remove (pidFilePath env))) :
    LogAll P (removed env w) := by
  unfold removed
  split
  · exact hw
  · exact add_logAll hw hP

theorem checkRunning_logAll (hw : LogAll P w) (hremove : P (.remove (pidFilePath env)))
    (hprobe : ∀ pid, recorded env w.files = some pid → P (.kill (asI32 pid) .probe)) :
    LogAll P (checkRunning env w).2 := by
  rw [checkRunning_eq]
  cases hr : recorded env w.files with
  | none => exact hw
  | some pid =>
    have hadd := add_logAll hw (hprobe pid hr)
    dsimp only
    split
    · exact hadd
    · exact removed_logAll hadd hremove

theorem stopDaemon_logAll (hw : LogAll P w) (hremove : P (.remove (pidFilePath env)))
    (hprint : ∀ line, P (.print line))
    (hkill : ∀ pid signal, recorded env w.files = some pid → P (.kill (asI32 pid) signal)) :
    LogAll P (stopDaemon env w).2 := by
  rw [stopDaemon_eq]
  cases hr : recorded env w.files with
  | none => exact hw
  | some pid =>
    have hprobe := add_logAll hw (hkill pid .probe hr)
    have hterm := add_logAll hprobe (hkill pid .term hr)
    dsimp only
    split
    · split
      · exact removed_logAll (add_logAll hterm (hprint _)) hremove
      · exact hterm
    · exact removed_logAll hprobe hremove

/-- The arguments that `daemonize` gives the child. -/
def childArgs (env : Env) : List Str :=
  env.args.filter (fun arg => arg != "--foreground".toList && arg != "-f".toList) ++
    ["--foreground".toList]

/-- The command line is a start in the background. -/
def Background (cli : Cli) : Prop :=
  cli.check = false ∧ (cli.command = none ∨ cli.command = some (.start false))

theorem daemonize_logAll (hspawn : P (.spawn (childArgs env))) :
    Prog.Keeps (LogAll P) (daemonize env) := by
  unfold daemonize
  cases env.currentExe with
  | some source => exact Prog.keeps_throw source
  | none =>
    cases env.spawn with
    | some source => exact Prog.keeps_throw source
    | none =>
      have hemit : Prog.Keeps (LogAll P) (emit (.spawn (childArgs env)) : Prog World IoError Unit) :=
        fun _ hw => add_logAll hw hspawn
      exact Prog.keeps_bind hemit fun _ => Prog.keeps_exit 0

section Whole

variable {cli : Cli} (hP : ∀ e : Effect, e.isServing = true → P e)
  (hprobe : ∀ pid, recorded env w.files = some pid → P (.kill (asI32 pid) .probe))

include hP hprobe

theorem start_logAll {foreground : Bool} (hw : LogAll P w)
    (hspawn : foreground = false → P (.spawn (childArgs env))) (path : Path) :
    LogAll P (start env cli foreground path w).2 := by
  have hcheck := checkRunning_logAll hw (hP _ rfl) hprobe
  have hrest : Prog.Keeps (LogAll P)
      (if !foreground then (daemonize env).mapErr .io else serve env cli path) := by
    cases foreground with
    | false => exact Prog.keeps_mapErr _ (daemonize_logAll (hspawn rfl))
    | true => exact (logInv_logAll hP).serve cli path
  unfold start
  simp only [bind]
  rcases hc : checkRunning env w with ⟨o, w₁⟩
  rw [hc] at hcheck
  cases o with
  | ok u => exact hrest w₁ hcheck
  | err e => exact hcheck
  | exit n => exact hcheck

/-- **What a run does**, by its kinds of effects: only `stop` signals, and only a start in
the background spawns. -/
theorem run_logAll (hw : LogAll P w) (hprint : ∀ line, P (.print line))
    (hspawn : Background cli → P (.spawn (childArgs env)))
    (hterm : cli.command = some .stop → ∀ pid, recorded env w.files = some pid →
      P (.kill (asI32 pid) .term)) : LogAll P (run env cli w).2 := by
  have hstop : cli.command = some .stop → LogAll P (stopDaemon env w).2 := by
    intro hc
    refine stopDaemon_logAll hw (hP _ rfl) hprint fun pid signal hr => ?_
    cases signal with
    | probe => exact hprobe pid hr
    | term => exact hterm hc pid hr
  have hprinted := add_logAll hw (hprint "1.4.0".toList)
  have hstart : ∀ foreground path, (cli.command = none ∧ foreground = false ∨
      cli.command = some (.start foreground)) → LogAll P ((if cli.check then check env path
        else start env cli foreground path) w).2 := by
    intro foreground path hc
    cases hcheck : cli.check with
    | true => exact (logInv_logAll hP).check (fun line _ hw => add_logAll hw (hprint line)) path w hw
    | false =>
      refine start_logAll hP hprobe hw (fun hf => hspawn ⟨hcheck, ?_⟩) path
      rcases hc with ⟨hc, -⟩ | hc
      · exact Or.inl hc
      · exact Or.inr (hf ▸ hc)
  unfold run
  rcases hc : cli.command with _ | foreground | _ | _
  · exact hstart false _ (Or.inl ⟨hc, rfl⟩)
  · exact hstart foreground _ (Or.inr hc)
  · exact hstop hc
  · exact hprinted

end Whole

/-! ## A process that starts -/

/-- How a process ends that finds these files. -/
def outcome (env : Env) (cli : Cli) (files : Path → Entry) : Outcome AppError Unit :=
  (run env cli ⟨files, []⟩).1

/-- What it does to the outside. -/
def effects (env : Env) (cli : Cli) (files : Path → Entry) : List Effect :=
  (run env cli ⟨files, []⟩).2.log

/-- The files that it leaves. -/
def filesAfter (env : Env) (cli : Cli) (files : Path → Entry) : Path → Entry :=
  (run env cli ⟨files, []⟩).2.files

end Run

end Retrotls
