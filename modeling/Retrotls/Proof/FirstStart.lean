import Retrotls.Proof.Sequential

/-!
# The first start, and the second

The first start in the foreground finds no configuration, writes a default one and exits
without serving; its PID stays in the PID file.

* `first_start`: what it leaves.
* `second_start_iff`: **the second start gets past its validation exactly when no process
  has the first one's PID**, and says that a daemon is running otherwise.
-/

namespace Retrotls

namespace Run

variable {env : Env} {cli : Cli} {path : Path} {files : Path → Entry}

/-- **The first start** writes its PID and the default configuration, and exits without
serving. -/
theorem first_start (hrun : ¬ Running env files) (hpid : Writable env (pidFilePath env))
    (hpath : Writable env path) (hne : path ≠ pidFilePath env) (habsent : files path = .absent)
    (cli : Cli) : (start env cli true path).Ends ⟨files, []⟩ fun o w =>
      o = .exit 0 ∧ .serve ∉ w.log ∧
        w.files (pidFilePath env) = .text (Retrotls.writePidFile env.pid) ∧
          w.files path = .text defaultConfigContent := by
  unfold start
  refine Prog.ends_bind.2 ((checkRunning_ends env files).mono ?_)
  rintro o w (⟨h, -⟩ | ⟨-, rfl, hfresh, -⟩)
  · exact absurd h hrun
  refine Prog.andThen_ok.2 ?_
  show (serve env cli path).Ends w _
  unfold serve
  refine Prog.ends_bind.2 ((writePidFile_cases hfresh).mono ?_)
  rintro o w₁ ⟨hput, hwritten⟩
  cases hput with
  | part _ hno _ => exact absurd hpid hno
  | kept hno _ => exact absurd hpid.1 hno
  | whole _ hfiles =>
    have habs : w₁.files path = .absent := by
      have hsame : w.files path = files path := hfresh.files path hne
      rw [hfiles, ← habsent, ← hsame]
      exact if_neg hne
    refine Prog.andThen_ok.2 (Prog.ends_bind.2 (((loadConfig_ends (hwritten rfl) path).and
      (loadConfig_loaded env path w₁)).mono ?_))
    rintro o w₂ ⟨⟨hw₂, -⟩, hloaded⟩
    cases hloaded with
    | config htext _ =>
      rw [habs] at htext
      cases htext
    | created _ _ hcreated => exact ⟨rfl, hw₂.serve, hw₂.pidFile, hcreated⟩
    | cut _ _ hnot _ => exact absurd hpath hnot
    | failed _ hkept _ => exact absurd ⟨habs, hpath.1⟩ hkept

/-- A `start` in the foreground. -/
theorem run_foreground (hc : cli.command = some (.start true)) (hcheck : cli.check = false) :
    run env cli = start env cli true (configPath env cli) := by
  unfold run
  rw [hc, hcheck]
  rfl

/-- A start that finds a running daemon does nothing but the check. -/
theorem start_running {pid : ℕ} (hr : recorded env files = some pid)
    (hk : env.kill (asI32 pid) .probe = true) (foreground : Bool) :
    start env cli foreground path ⟨files, []⟩ =
      (.err (.alreadyRunning pid), ⟨files, [.kill (asI32 pid) .probe]⟩) := by
  refine start_err ?_ foreground
  rw [checkRunning_eq, show recorded env (⟨files, []⟩ : World).files = some pid from hr]
  dsimp only
  rw [hk, if_pos rfl]
  rfl

/-- The next process in the same home directory, where the PID file can be written and the
default configuration is a valid one. -/
structure Next (env env' : Env) : Prop where
  home : env'.home = env.home
  writable : Writable env' (pidFilePath env)
  valid : ValidConfig env' (.text defaultConfigContent)

theorem Next.pidFilePath {env env' : Env} (h : Next env env') :
    pidFilePath env' = Run.pidFilePath env := by
  rw [Run.pidFilePath, Run.pidFilePath, retrotlsHome, retrotlsHome, h.home]

theorem Next.configPath {env env' : Env} (h : Next env env') (cli : Cli) :
    configPath env' cli = Run.configPath env cli := by
  rw [Run.configPath, Run.configPath, defaultConfigPath, defaultConfigPath, h.home]

/-- **What the first start leaves**: it has exited with status 0 and not served, with its PID in
the PID file, and the default configuration at its path. -/
structure FirstLeft (env : Env) (cli : Cli) (files : Path → Entry) : Prop where
  exits : outcome env cli files = .exit 0
  serves : .serve ∉ effects env cli files
  pidFile : filesAfter env cli files (pidFilePath env) = .text (Retrotls.writePidFile env.pid)
  config : filesAfter env cli files (configPath env cli) = .text defaultConfigContent

/-- **The second start**, of the same command line: it gets past its validation exactly when no
process has the PID that the first one has left, and says that one is running otherwise. -/
structure SecondStart (env env' : Env) (cli : Cli) (files : Path → Entry) : Prop where
  passes : Passed (effects env' cli (filesAfter env cli files)) ↔ env'.kill env.pid .probe = false
  refused : env'.kill env.pid .probe = true →
    outcome env' cli (filesAfter env cli files) = .err (.alreadyRunning env.pid)

theorem second_start {env' : Env} (hc : cli.command = some (.start true)) (hcheck : cli.check = false)
    (hvalid : ValidPid env.pid) (hne : configPath env cli ≠ pidFilePath env) (hnext : Next env env')
    (hleft : FirstLeft env cli files) : SecondStart env env' cli files := by
  obtain ⟨-, -, hfile, hconfig⟩ := hleft
  set files' := filesAfter env cli files
  have hrecorded : recorded env' files' = some env.pid := by
    rw [recorded, hnext.pidFilePath, hfile]
    exact readPidFile_writePidFile hvalid
  have hrun := @run_foreground env' cli hc hcheck
  rw [hnext.configPath] at hrun
  cases hk : env'.kill env.pid .probe with
  | true =>
    have hprobe : env'.kill (asI32 env.pid) .probe = true := by
      rw [asI32_of_valid hvalid]
      exact hk
    have heq := @start_running env' cli (configPath env cli) files' _ hrecorded hprobe true
    rw [← hrun] at heq
    constructor
    · refine iff_of_false (not_passed_iff.2 fun e he => ?_) (by simp [hk])
      rw [effects, heq] at he
      rw [List.mem_singleton.1 he]
      rfl
    · intro _
      rw [outcome, heq]
  | false =>
    have hno : ¬ Running env' files' := by
      rintro ⟨pid, hr, hk'⟩
      rw [hrecorded, Option.some.injEq] at hr
      rw [← hr, asI32_of_valid hvalid, hk] at hk'
      cases hk'
    have hseen : seen env' ⟨files', []⟩ (configPath env cli) = .text defaultConfigContent := by
      rw [seen, hnext.pidFilePath, if_neg hne]
      exact hconfig
    have hwritable : Writable env' (Run.pidFilePath env') := by
      rw [hnext.pidFilePath]
      exact hnext.writable
    refine ⟨iff_of_true ?_ hk, fun h => by rw [hk] at h; cases h⟩
    have hends := foreground_ends env' cli (configPath env cli) files'
    unfold Prog.Ends at hends
    rw [effects, hrun]
    generalize (start env' cli true (configPath env cli) ⟨files', []⟩).1 = o at hends
    rcases hends with ⟨hr, -⟩ | ⟨-, hstarted⟩
    · exact absurd hr hno
    · cases hstarted with
      | passed _ _ hpassed => exact hpassed
      | created _ habs _ _ =>
        rw [hseen] at habs
        cases habs
      | failed hinvalid _ _ =>
        rw [hseen] at hinvalid
        exact absurd ⟨hwritable, hnext.valid⟩ hinvalid

/-- **The first start, and the second.** Where there is no daemon and no configuration, and the
PID file and the configuration can be written, the first `start` leaves its PID and the default
configuration and serves nothing; the same command line, run by the next process, then gets
past its validation exactly when no process has that PID. -/
theorem second_start_iff {env' : Env} (hc : cli.command = some (.start true))
    (hcheck : cli.check = false) (hrun : ¬ Running env files) (hvalid : ValidPid env.pid)
    (hpid : Writable env (pidFilePath env)) (hpath : Writable env (configPath env cli))
    (hne : configPath env cli ≠ pidFilePath env) (habsent : files (configPath env cli) = .absent)
    (hnext : Next env env') : FirstLeft env cli files ∧ SecondStart env env' cli files := by
  have hfirst := first_start hrun hpid hpath hne habsent cli
  rw [← run_foreground hc hcheck] at hfirst
  obtain ⟨hexit, hserve, hfile, hconfig⟩ := hfirst
  have hleft : FirstLeft env cli files := ⟨hexit, hserve, hfile, hconfig⟩
  exact ⟨hleft, second_start hc hcheck hvalid hne hnext hleft⟩

/-- What the default configuration says. -/
def defaultConfig : Config where
  logLevel := some "info".toList
  accessLog := true
  shutdownTimeoutSecs := none
  listeners := [⟨.v4 0x7f000001 8080, "https://api.example.com".toList⟩]

/-- The default configuration is valid. -/
theorem defaultConfig_valid : defaultConfig.validate httpCrate = .ok () := by decide +kernel

/-- A parser that reads one text. -/
def parseOnly (text : Str) (config : Config) (content : Str) : Except Str Config :=
  if content = text then .ok config else .error []

theorem parseOnly_self (text : Str) (config : Config) : parseOnly text config text = .ok config :=
  if_pos rfl

/-- A second process, with a parser that reads the default configuration. -/
def secondEnv : Env :=
  { calm with pid := 4343, parseYaml := parseOnly defaultConfigContent defaultConfig }

theorem second_start_iff_calm : FirstLeft calm startCli noConfig.files ∧
    SecondStart calm secondEnv startCli noConfig.files := by
  have hparser : secondEnv.parseYaml = parseOnly defaultConfigContent defaultConfig := rfl
  have hparse : secondEnv.parseYaml defaultConfigContent = .ok defaultConfig := by
    rw [hparser]
    exact parseOnly_self _ _
  have hnext : Next calm secondEnv :=
    ⟨rfl, ⟨⟨fun _ _ => rfl, rfl⟩, rfl⟩, defaultConfigContent, defaultConfig, rfl, hparse,
      defaultConfig_valid⟩
  have hrun : ¬ Running calm noConfig.files := by
    rintro ⟨pid, h, -⟩
    cases h
  have hwritable : ∀ path, Writable calm path := fun _ => ⟨⟨fun _ _ => rfl, rfl⟩, rfl⟩
  exact second_start_iff rfl rfl hrun (by decide) (hwritable _) (hwritable _) (by decide +kernel) rfl
    hnext

end Run

end Retrotls
