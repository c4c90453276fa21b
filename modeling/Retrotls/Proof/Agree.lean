import Retrotls.Proof.Check

/-!
# Starts in the background and in the foreground

* `foreground_ends`: what a start in the foreground ends with, by what it finds.
* `background_eq`: what a start in the background ends with: it reads no configuration.
* `agree_iff`: **exactly where the two agree on the configuration.**
-/

namespace Retrotls

/-- What follows `Config::validate`: the logging is set up, or the check reports. -/
def Effect.afterValidate : Effect → Bool
  | .logging _ => true
  | .print line => line = "Configuration valid".toList
  | _ => false

namespace Run

variable {env : Env} {cli : Cli} {w : World} {path : Path} {files : Path → Entry}

/-- The run gets past `load_config` and `Config::validate`. -/
def Passed (log : List Effect) : Prop := ∃ e ∈ log, e.afterValidate = true

theorem not_passed_iff {log : List Effect} :
    ¬ Passed log ↔ ∀ e ∈ log, e.afterValidate = false := by
  simp [Passed]

theorem logInv_notPassed : LogInv (LogAll fun e => e.afterValidate = false) Effect.isFile :=
  logInv_logAll fun e he => by cases e <;> first | rfl | cases he

/-- A daemon is running: a PID is recorded, and it can be probed. -/
def Running (env : Env) (files : Path → Entry) : Prop :=
  ∃ pid, recorded env files = some pid ∧ env.kill (asI32 pid) .probe = true

/-- The check whether a daemon is running fails where one is, and otherwise leaves all
files but the PID file. -/
theorem checkRunning_ends (env : Env) (files : Path → Entry) :
    (checkRunning env).Ends ⟨files, []⟩ fun o w =>
      (Running env files ∧ ∃ pid, o = .err (.alreadyRunning pid)) ∨
      (¬ Running env files ∧ o = .ok () ∧ Fresh env ⟨files, []⟩ w ∧
        LogAll (fun e => e.afterValidate = false) w) := by
  have hfresh : Fresh env ⟨files, []⟩ ⟨files, []⟩ := ⟨by simp [PidWritten], by simp, fun _ _ => rfl⟩
  have hkept : Fresh env ⟨files, []⟩ (checkRunning env ⟨files, []⟩).2 :=
    checkRunning_fresh ⟨files, []⟩ hfresh
  have hlog : LogAll (fun e => e.afterValidate = false) (checkRunning env ⟨files, []⟩).2 :=
    checkRunning_logAll (fun _ h => by cases h) rfl fun _ _ => rfl
  unfold Prog.Ends
  rw [checkRunning_eq] at hkept hlog ⊢
  cases hr : recorded env files with
  | none =>
    have hr' : recorded env (⟨files, []⟩ : World).files = none := hr
    rw [hr'] at hkept hlog
    refine Or.inr ⟨?_, rfl, hkept, hlog⟩
    rintro ⟨pid, hp, -⟩
    rw [hr] at hp
    cases hp
  | some pid =>
    have hr' : recorded env (⟨files, []⟩ : World).files = some pid := hr
    rw [hr'] at hkept hlog
    dsimp only at hkept hlog ⊢
    cases hk : env.kill (asI32 pid) .probe with
    | true => exact Or.inl ⟨⟨pid, hr, hk⟩, pid, rfl⟩
    | false =>
      rw [hk] at hkept hlog
      refine Or.inr ⟨?_, rfl, hkept, hlog⟩
      rintro ⟨pid', hp, hk'⟩
      rw [hr, Option.some.injEq] at hp
      rw [← hp, hk] at hk'
      cases hk'

/-! ## In the foreground -/

/-- `write_pid_file` succeeds where the PID file can be written. -/
theorem writePidFile_put (env : Env) (pid : ℕ) (w : World) :
    ((writePidFile env pid).mapErr AppError.io).Ends w
      (Put env (pidFilePath env) (Retrotls.writePidFile pid) w) := by
  unfold writePidFile
  rw [Prog.mapErr_bind]
  exact put_ends .io .io (pidFilePath env) (Retrotls.writePidFile pid) w

/-- `init_logging` sets up the logging. -/
theorem initLogging_logs (env : Env) (level : Str) (w : World) :
    (initLogging env level).Ends w fun o w' => o = .ok () ∧ .logging level ∈ w'.log := by
  have hparent : Prog.Keeps (fun _ => True) (createParent env (logFilePath env)) := fun _ _ => trivial
  have hopen : Prog.Keeps (fun _ => True) (openAppend env (logFilePath env)) := fun _ _ => trivial
  unfold initLogging
  refine Prog.ends_bind_ok (Prog.ends_ignore (createParent_noExit _) hparent trivial) fun w₁ _ => ?_
  refine Prog.ends_bind_ok (Prog.ends_ignore (openAppend_noExit _) hopen trivial) fun w₂ _ => ?_
  exact ⟨rfl, List.mem_append_right _ (List.mem_singleton_self _)⟩

/-- With a valid configuration, `run` sets up the logging, whatever comes after. -/
theorem logging_passed (config : Config) (level : Str) (w : World) : (do
      initLogging env level
      trace env .info "RetroTLS v1.4.0 starting...".toList
      serving env config : Prog World AppError Unit).Ends w fun _ w' => Passed w'.log := by
  have hmem : ∀ A, LogInv (fun w => .logging level ∈ w.log) A := fun A => logInv_mem _
  have hrest : Prog.Keeps (fun w => .logging level ∈ w.log) (do
      trace env .info "RetroTLS v1.4.0 starting...".toList
      serving env config : Prog World AppError Unit) :=
    Prog.keeps_bind ((hmem _).trace _ _) fun _ => (hmem _).serving config
  refine Prog.ends_bind_ok (initLogging_logs env level w) fun w₁ hw₁ => ?_
  exact (hrest.ends hw₁).mono fun _ w₂ hw₂ => ⟨_, hw₂, rfl⟩

/-- **What a start in the foreground can end with**, when no daemon is running. -/
inductive Started (env : Env) (files : Path → Entry) (path : Path) :
    Outcome AppError Unit → World → Prop
  | passed {o : Outcome AppError Unit} {w : World} (hwritten : Writable env (pidFilePath env))
      (hvalid : ValidConfig env (seen env ⟨files, []⟩ path)) (hpassed : Passed w.log) :
      Started env files path o w
  | created {w : World} (hwritten : Writable env (pidFilePath env))
      (habsent : seen env ⟨files, []⟩ path = .absent) (hwritable : Writable env path)
      (hnot : ¬ Passed w.log) : Started env files path (.exit 0) w
  | failed {e : AppError} {w : World}
      (hinvalid : ¬ (Writable env (pidFilePath env) ∧ ValidConfig env (seen env ⟨files, []⟩ path)))
      (hkept : ¬ (Writable env (pidFilePath env) ∧ seen env ⟨files, []⟩ path = .absent ∧
        Writable env path)) (hnot : ¬ Passed w.log) : Started env files path (.err e) w

theorem serve_ends (hw : Fresh env ⟨files, []⟩ w)
    (hlog : LogAll (fun e => e.afterValidate = false) w) (cli : Cli) (path : Path) :
    (serve env cli path).Ends w (Started env files path) := by
  have hwrite := (writePidFile_put env env.pid w).and
    ((Prog.keeps_mapErr AppError.io (logInv_notPassed.writePidFile env.pid)).ends hlog)
  unfold serve
  refine Prog.ends_bind.2 (hwrite.mono ?_)
  rintro o w₁ ⟨⟨hwritten, hfiles⟩ | ⟨-, hwritten, -⟩ | ⟨hno, -⟩, hlog₁⟩
  · have hseen : w₁.files path = seen env ⟨files, []⟩ path := by
      rw [hfiles, seen]
      by_cases hp : path = pidFilePath env
      · rw [if_pos hp]
        exact if_pos hp
      · rw [if_neg hp, ← hw.files path hp]
        exact if_neg hp
    have hload := (loadConfig_loaded env path w₁).and ((logInv_notPassed.loadConfig path).ends hlog₁)
    refine Prog.andThen_ok.2 (Prog.ends_bind.2 (hload.mono ?_))
    rintro o w₂ ⟨⟨htext, hyaml⟩ | ⟨habsent, hwritable, -⟩ | ⟨habsent, -, hcut, -⟩ |
      ⟨hinvalid, hkept, -⟩, hlog₂⟩
    · rename_i content config
      have hvalid := validConfig_text hyaml
      rw [← htext, hseen] at hvalid
      rw [Prog.andThen_ok]
      cases hv : config.validate env.http with
      | ok u =>
        rw [Prog.ofExcept_ok_bind]
        refine (logging_passed config _ _).mono fun o w₃ hpassed => ?_
        exact .passed hwritten (hvalid.2 hv) hpassed
      | error e =>
        refine .failed ?_ ?_ (not_passed_iff.2 hlog₂)
        · rintro ⟨-, h⟩
          rw [hvalid, hv] at h
          cases h
        · rintro ⟨-, h, -⟩
          rw [← hseen, htext] at h
          cases h
    · exact .created hwritten (hseen ▸ habsent) hwritable (not_passed_iff.2 hlog₂)
    · rw [hseen] at habsent
      exact .failed (fun h => h.2.present habsent) (fun h => hcut h.2.2) (not_passed_iff.2 hlog₂)
    · rw [hseen] at hinvalid hkept
      exact .failed (fun h => hinvalid h.2) (fun h => hkept ⟨h.2.1, h.2.2.1⟩)
        (not_passed_iff.2 hlog₂)
  · exact .failed (fun h => hwritten h.1) (fun h => hwritten h.1) (not_passed_iff.2 hlog₁)
  · exact .failed (fun h => hno h.1.1) (fun h => hno h.1.1) (not_passed_iff.2 hlog₁)

/-- **A start in the foreground.** -/
theorem foreground_ends (env : Env) (cli : Cli) (path : Path) (files : Path → Entry) :
    (start env cli true path).Ends ⟨files, []⟩ fun o w =>
      (Running env files ∧ ∃ pid, o = .err (.alreadyRunning pid)) ∨
        (¬ Running env files ∧ Started env files path o w) := by
  refine Prog.ends_bind.2 ((checkRunning_ends env files).mono ?_)
  rintro o w (⟨hrun, pid, rfl⟩ | ⟨hrun, rfl, hfresh, hlog⟩)
  · exact Or.inl ⟨hrun, pid, rfl⟩
  · refine Prog.andThen_ok.2 ((serve_ends hfresh hlog cli path).mono fun o w' h => ?_)
    exact Or.inr ⟨hrun, h⟩

theorem status_err (e : AppError) : status (.err e) ≠ 0 := Nat.one_ne_zero

/-! ## In the background -/

/-- The child can be spawned. -/
def Spawns (env : Env) : Prop := env.currentExe = none ∧ env.spawn = none

/-- **A start in the background** reads no configuration: it succeeds where no daemon is
running and the child can be spawned. -/
theorem background_ends (env : Env) (cli : Cli) (path : Path) (files : Path → Entry) :
    (start env cli false path).Ends ⟨files, []⟩ fun o _ =>
      status o = 0 ↔ ¬ Running env files ∧ Spawns env := by
  refine Prog.ends_bind.2 ((checkRunning_ends env files).mono ?_)
  rintro o w (⟨hrun, pid, rfl⟩ | ⟨hrun, rfl, -, -⟩)
  · exact iff_of_false (status_err _) fun h => h.1 hrun
  · refine Prog.andThen_ok.2 (Prog.ends_mapErr.2 ?_)
    unfold Prog.Ends daemonize Spawns
    cases hexe : env.currentExe with
    | some source => exact iff_of_false (status_err _) (by simp)
    | none =>
      cases hspawn : env.spawn with
      | some source => exact iff_of_false (status_err _) (by simp)
      | none => exact iff_of_true rfl ⟨hrun, rfl, rfl⟩

/-! ## Agreement -/

/-- The same command line with `--foreground`. -/
def inForeground (cli : Cli) : Cli := { cli with command := some (.start true) }

/-- The configuration that a start in the foreground finds: the file at its path, or the
PID that it has written, if that is its path. A check writes none. -/
def found (env : Env) (cli : Cli) (files : Path → Entry) : Entry :=
  if cli.check then files (configPath env cli) else seen env ⟨files, []⟩ (configPath env cli)

/-- **The two modes agree on the configuration**: the background mode succeeds only where
the foreground mode gets past the validation, and a configuration that is not valid is
reported by both. -/
structure Agree (env : Env) (cli : Cli) (files : Path → Entry) : Prop where
  passes : status (outcome env cli files) = 0 → Passed (effects env (inForeground cli) files)
  reported : ¬ ValidConfig env (found env cli files) → status (outcome env cli files) ≠ 0 ∧
    status (outcome env (inForeground cli) files) ≠ 0

/-- **Where they agree**: a daemon is running; or the child is spawned, the PID file can be
written and the configuration is valid; or the child is not spawned, and the foreground
mode creates no configuration. With `--check`: no configuration is created. -/
def AgreeWhen (env : Env) (cli : Cli) (files : Path → Entry) : Prop :=
  if cli.check then
    ¬ (files (configPath env cli) = .absent ∧ Writable env (configPath env cli))
  else
    Running env files ∨
      (Spawns env ∧ Writable env (pidFilePath env) ∧ ValidConfig env (found env cli files)) ∨
      (¬ Spawns env ∧ ¬ (Writable env (pidFilePath env) ∧ found env cli files = .absent ∧
        Writable env (configPath env cli)))

theorem agree_check (hc : cli.command = some (.start false)) (hcheck : cli.check = true) :
    Agree env cli files ↔
      ¬ (files (configPath env cli) = .absent ∧ Writable env (configPath env cli)) := by
  have hfound : found env cli files = files (configPath env cli) := if_pos hcheck
  have hb : run env cli = check env (configPath env cli) := run_check hcheck (Or.inr ⟨false, hc⟩)
  have hf : run env (inForeground cli) = check env (configPath env cli) :=
    run_check hcheck (Or.inr ⟨true, rfl⟩)
  have hends := check_ends env (configPath env cli) ⟨files, []⟩
  have hpair : Agree env cli files ↔
      (status (check env (configPath env cli) ⟨files, []⟩).1 = 0 →
        Passed (check env (configPath env cli) ⟨files, []⟩).2.log) ∧
      (¬ ValidConfig env (files (configPath env cli)) →
        status (check env (configPath env cli) ⟨files, []⟩).1 ≠ 0) := by
    constructor
    · rintro ⟨h1, h2⟩
      rw [outcome, hb, effects, hf] at h1
      rw [outcome, hb, hfound] at h2
      exact ⟨h1, fun h => (h2 h).1⟩
    · rintro ⟨h1, h2⟩
      refine ⟨?_, ?_⟩
      · rw [outcome, hb, effects, hf]
        exact h1
      · rw [outcome, hb, outcome, hf, hfound]
        exact fun h => ⟨h2 h, h2 h⟩
  rw [hpair]
  unfold Prog.Ends at hends
  generalize (check env (configPath env cli) ⟨files, []⟩).1 = o at hends ⊢
  generalize (check env (configPath env cli) ⟨files, []⟩).2 = w at hends ⊢
  cases hends with
  | valid hvalid =>
    refine iff_of_true ⟨fun _ => ?_, fun h => absurd hvalid h⟩ ?_
    · exact ⟨_, List.mem_append_right _ (List.mem_singleton_self _), by decide⟩
    · exact fun h => hvalid.present h.1
  | created habsent hwritable _ =>
    refine iff_of_false ?_ fun h => h ⟨habsent, hwritable⟩
    rintro ⟨-, h⟩
    exact h (fun hvalid => hvalid.present habsent) rfl
  | cut _ _ hnot _ =>
    exact iff_of_true ⟨fun h => absurd h (status_err _), fun _ => status_err _⟩ fun h => hnot h.2
  | failed hinvalid hkept _ =>
    exact iff_of_true ⟨fun h => absurd h (status_err _), fun _ => status_err _⟩
      fun h => hkept ⟨h.1, h.2.1⟩

theorem agree_start (hc : cli.command = some (.start false)) (hcheck : cli.check = false) :
    Agree env cli files ↔ Running env files ∨
      (Spawns env ∧ Writable env (pidFilePath env) ∧ ValidConfig env (found env cli files)) ∨
      (¬ Spawns env ∧ ¬ (Writable env (pidFilePath env) ∧ found env cli files = .absent ∧
        Writable env (configPath env cli))) := by
  have hfound : found env cli files = seen env ⟨files, []⟩ (configPath env cli) := by
    unfold found
    rw [if_neg (by simp [hcheck])]
  have hb : run env cli = start env cli false (configPath env cli) := by
    unfold run
    rw [hc, hcheck]
    rfl
  have hf : run env (inForeground cli) = start env (inForeground cli) true (configPath env cli) := by
    unfold run
    rw [show (inForeground cli).check = false from hcheck]
    rfl
  have hback := background_ends env cli (configPath env cli) files
  have hfore := foreground_ends env (inForeground cli) (configPath env cli) files
  rw [← hb, Prog.Ends] at hback
  rw [← hf, Prog.Ends] at hfore
  have hpair : Agree env cli files ↔
      (¬ Running env files ∧ Spawns env → Passed (run env (inForeground cli) ⟨files, []⟩).2.log) ∧
      (¬ ValidConfig env (found env cli files) → ¬ (¬ Running env files ∧ Spawns env) ∧
        status (run env (inForeground cli) ⟨files, []⟩).1 ≠ 0) := by
    rw [← hback]
    exact ⟨fun h => ⟨h.passes, h.reported⟩, fun h => ⟨h.1, h.2⟩⟩
  rw [hpair, hfound]
  generalize (run env (inForeground cli) ⟨files, []⟩).1 = o at hfore ⊢
  generalize (run env (inForeground cli) ⟨files, []⟩).2 = w at hfore ⊢
  rcases hfore with ⟨hrun, pid, rfl⟩ | ⟨hrun, hstarted⟩
  · -- a daemon is running: both modes say so
    exact iff_of_true ⟨fun h => absurd hrun h.1, fun _ => ⟨fun h => h.1 hrun, status_err _⟩⟩
      (Or.inl hrun)
  · simp only [hrun, not_false_eq_true, true_and, false_or]
    cases hstarted with
    | passed hwritten hvalid hpassed =>
      refine iff_of_true ⟨fun _ => hpassed, fun h => absurd hvalid h⟩ ?_
      by_cases hs : Spawns env
      · exact Or.inl ⟨hs, hwritten, hvalid⟩
      · refine Or.inr ⟨hs, ?_⟩
        exact fun h => hvalid.present h.2.1
    | created hwritten habsent hwritable hnot =>
      have hinvalid : ¬ ValidConfig env (seen env ⟨files, []⟩ (configPath env cli)) :=
        fun hvalid => hvalid.present habsent
      refine iff_of_false (fun h => (h.2 hinvalid).2 rfl) ?_
      rintro (⟨-, -, hvalid⟩ | ⟨-, hkept⟩)
      · exact hinvalid hvalid
      · exact hkept ⟨hwritten, habsent, hwritable⟩
    | failed hinvalid hkept hnot =>
      by_cases hs : Spawns env
      · refine iff_of_false (fun h => hnot (h.1 hs)) ?_
        rintro (⟨-, hwritten, hvalid⟩ | ⟨hno, -⟩)
        · exact hinvalid ⟨hwritten, hvalid⟩
        · exact hno hs
      · exact iff_of_true ⟨fun h => absurd h hs, fun _ => ⟨hs, status_err _⟩⟩
          (Or.inr ⟨hs, hkept⟩)

/-- **Exactly where the two modes agree.** -/
theorem agree_iff (hc : cli.command = some (.start false)) :
    Agree env cli files ↔ AgreeWhen env cli files := by
  unfold AgreeWhen
  cases hcheck : cli.check with
  | true => exact agree_check hc hcheck
  | false => exact agree_start hc hcheck

/-- `retrotls start`. -/
def backgroundCli : Cli := ⟨some (.start false), none, false, none⟩

theorem agree_iff_noConfig : Agree calm backgroundCli noConfig.files ↔
    AgreeWhen calm backgroundCli noConfig.files :=
  agree_iff rfl

/-- **A start in the background succeeds without a configuration.** -/
theorem background_unread : status (outcome calm backgroundCli noConfig.files) = 0 ∧
    ¬ Passed (effects calm (inForeground backgroundCli) noConfig.files) ∧
      ¬ Agree calm backgroundCli noConfig.files := by
  have hstatus : status (outcome calm backgroundCli noConfig.files) = 0 := by decide +kernel
  have hnot : ¬ Passed (effects calm (inForeground backgroundCli) noConfig.files) := by
    rw [not_passed_iff]
    decide +kernel
  exact ⟨hstatus, hnot, fun h => hnot (h.passes hstatus)⟩

end Run

end Retrotls
