import Retrotls.Proof.Kill

/-!
# What `--check` does

* `loadConfig_loaded`: what `load_config` returns, and what it leaves of the files.
* `check_ends`: what `run` does with `--check`, by what it finds at the path.
* `pure_check_iff`: **the command lines with `--check` that change no file, send no signal
  and succeed exactly on valid configurations.**
-/

namespace Retrotls.Run

variable {env : Env} {cli : Cli} {w : World} {path : Path} {files : Path → Entry}

/-- The file at the path can be created or emptied: so can its directory. -/
def Creatable (env : Env) (path : Path) : Prop :=
  (∀ parent, path.parent = some parent → env.createDirAll parent = none) ∧ env.create path = none

/-- It can be written, too. -/
def Writable (env : Env) (path : Path) : Prop := Creatable env path ∧ env.writeAll path = none

/-- The entry is a configuration that is parsed and valid. -/
def ValidConfig (env : Env) (entry : Entry) : Prop :=
  ∃ content config, entry = .text content ∧ env.parseYaml content = .ok config ∧
    config.validate env.http = .ok ()

/-- A valid configuration is in a file that is there. -/
theorem ValidConfig.present {entry : Entry} (h : ValidConfig env entry) : entry ≠ .absent := by
  obtain ⟨content, config, rfl, -⟩ := h
  intro habsent
  cases habsent

theorem createParent_ends (env : Env) (path : Path) (w : World) :
    (createParent env path).Ends w fun o w' => w'.files = w.files ∧
      ((o = .ok () ∧ ∀ parent, path.parent = some parent → env.createDirAll parent = none) ∨
        ((∃ e, o = .err e) ∧ ¬ ∀ parent, path.parent = some parent → env.createDirAll parent = none)) := by
  unfold createParent createDirAll
  cases hp : path.parent with
  | none => exact ⟨rfl, Or.inl ⟨rfl, fun _ h => by cases h⟩⟩
  | some parent =>
    dsimp only
    cases hd : env.createDirAll parent with
    | none =>
      refine ⟨rfl, Or.inl ⟨rfl, ?_⟩⟩
      rintro _ ⟨rfl⟩
      exact hd
    | some source =>
      refine ⟨rfl, Or.inr ⟨⟨source, rfl⟩, fun h => ?_⟩⟩
      have hnone := h parent rfl
      rw [hd] at hnone
      cases hnone

/-- **What a write of a file with its directory can end with**: it is there as a whole, or
as far as it was written, or nothing has changed. -/
inductive Put (env : Env) (path : Path) (content : Str) (w : World) :
    Outcome AppError Unit → World → Prop
  | whole {w' : World} (hwritable : Writable env path)
      (hfiles : w'.files = fun p => if p = path then .text content else w.files p) :
      Put env path content w (.ok ()) w'
  | part {e : AppError} {w' : World} {count : ℕ} (hcreatable : Creatable env path)
      (hnot : ¬ Writable env path)
      (hfiles : w'.files = fun p => if p = path then .text (content.take count) else w.files p) :
      Put env path content w (.err e) w'
  | kept {e : AppError} {w' : World} (hnot : ¬ Creatable env path) (hfiles : w'.files = w.files) :
      Put env path content w (.err e) w'

/-- **Writing a file with its directory**, as `write_pid_file` and `create_default_config`
do. -/
theorem put_ends (g g' : IoError → AppError) (path : Path) (content : Str) (w : World) :
    (do
      (createParent env path).mapErr g
      (write env path content).mapErr g' : Prog World AppError Unit).Ends w
        (Put env path content w) := by
  refine Prog.ends_bind.2 (Prog.ends_mapErr.2 ((createParent_ends env path w).mono ?_))
  rintro o w₁ ⟨hfiles, ⟨rfl, hdir⟩ | ⟨⟨e, rfl⟩, hdir⟩⟩
  · refine Prog.andThen_ok.2 (Prog.ends_mapErr.2 ((write_ends env path content w₁).mono ?_))
    rintro o w₂ hwrote
    cases hwrote with
    | whole hcreate hwrite =>
      refine .whole ⟨⟨hdir, hcreate⟩, hwrite⟩ ?_
      rw [← hfiles]
      rfl
    | @part count source hcreate hwrite =>
      refine @Put.part env path content w _ _ count ⟨hdir, hcreate⟩ (fun h => ?_) ?_
      · have hnone := h.2
        rw [hwrite] at hnone
        cases hnone
      · rw [← hfiles]
        rfl
    | kept hcreate =>
      refine .kept (fun h => ?_) hfiles
      have hnone := h.2
      rw [hcreate] at hnone
      cases hnone
  · exact .kept (fun h => hdir h.1) hfiles

/-! ## Loading -/

/-- **What `load_config` can end with.** -/
inductive Loaded (env : Env) (path : Path) (w : World) : Outcome AppError Config → World → Prop
  | config {content : Str} {config : Config} (htext : w.files path = .text content)
      (hyaml : env.parseYaml content = .ok config) : Loaded env path w (.ok config) w
  | created {w' : World} (habsent : w.files path = .absent) (hwritable : Writable env path)
      (hfiles : w'.files path = .text defaultConfigContent) : Loaded env path w (.exit 0) w'
  | cut {e : AppError} {w' : World} {count : ℕ} (habsent : w.files path = .absent)
      (hcreatable : Creatable env path) (hnot : ¬ Writable env path)
      (hfiles : w'.files path = .text (defaultConfigContent.take count)) :
      Loaded env path w (.err e) w'
  | failed {e : AppError} {w' : World} (hinvalid : ¬ ValidConfig env (w.files path))
      (hkept : ¬ (w.files path = .absent ∧ Creatable env path)) (hfiles : w'.files = w.files) :
      Loaded env path w (.err e) w'

theorem loadConfig_loaded (env : Env) (path : Path) (w : World) :
    (loadConfig env path).Ends w (Loaded env path w) := by
  unfold Prog.Ends
  rw [loadConfig_eq]
  cases hf : w.files path with
  | absent =>
    show Prog.Ends _ w _
    refine Prog.ends_bind.2 ((put_ends _ _ path defaultConfigContent w).mono ?_)
    intro o w' hput
    cases hput with
    | whole hwritable hw' =>
      have hpath : w'.files path = .text defaultConfigContent := by
        rw [hw']
        exact if_pos rfl
      exact Loaded.created hf hwritable hpath
    | @part e _ count hcreatable hnot hw' =>
      have hpath : w'.files path = .text (defaultConfigContent.take count) := by
        rw [hw']
        exact if_pos rfl
      exact Loaded.cut hf hcreatable hnot hpath
    | kept hnot hw' => exact Loaded.failed (fun h => h.present hf) (fun h => hnot h.2) hw'
  | text content =>
    dsimp only
    cases hy : env.parseYaml content with
    | ok config => exact Loaded.config hf hy
    | error source =>
      refine Loaded.failed ?_ ?_ rfl
      · rw [hf]
        rintro ⟨_, config, ⟨⟩, hy', -⟩
        rw [hy] at hy'
        cases hy'
      · rw [hf]
        rintro ⟨hc, -⟩
        cases hc
  | unreadable source =>
    refine Loaded.failed ?_ ?_ rfl
    · rw [hf]
      rintro ⟨content, config, hc, -⟩
      cases hc
    · rw [hf]
      rintro ⟨hc, -⟩
      cases hc

theorem validConfig_text {content : Str} {config : Config} (hy : env.parseYaml content = .ok config) :
    ValidConfig env (.text content) ↔ config.validate env.http = .ok () := exists_parsed hy

/-- **What a check can end with.** -/
inductive Checked (env : Env) (path : Path) (w : World) : Outcome AppError Unit → World → Prop
  | valid (hvalid : ValidConfig env (w.files path)) :
      Checked env path w (.ok ()) (w.add (.print "Configuration valid".toList))
  | created {w' : World} (habsent : w.files path = .absent) (hwritable : Writable env path)
      (hfiles : w'.files path = .text defaultConfigContent) : Checked env path w (.exit 0) w'
  | cut {e : AppError} {w' : World} {count : ℕ} (habsent : w.files path = .absent)
      (hcreatable : Creatable env path) (hnot : ¬ Writable env path)
      (hfiles : w'.files path = .text (defaultConfigContent.take count)) :
      Checked env path w (.err e) w'
  | failed {e : AppError} {w' : World} (hinvalid : ¬ ValidConfig env (w.files path))
      (hkept : ¬ (w.files path = .absent ∧ Creatable env path)) (hfiles : w'.files = w.files) :
      Checked env path w (.err e) w'

/-- **A check**, by what it finds. -/
theorem check_ends (env : Env) (path : Path) (w : World) :
    (check env path).Ends w (Checked env path w) := by
  refine Prog.ends_bind.2 ((loadConfig_loaded env path w).mono ?_)
  rintro o w' (⟨htext, hyaml⟩ | ⟨habsent, hwritable, hfiles⟩ | ⟨habsent, hcreatable, hnot, hfiles⟩ |
    ⟨hinvalid, hkept, hfiles⟩)
  · rename_i content config
    have hvalid := validConfig_text hyaml
    rw [Prog.andThen_ok]
    cases hv : config.validate env.http with
    | ok u =>
      rw [Prog.ofExcept_ok_bind]
      rw [hv, ← htext] at hvalid
      exact Checked.valid (hvalid.2 rfl)
    | error e =>
      refine Checked.failed ?_ ?_ rfl
      · rw [htext, hvalid, hv]
        rintro ⟨⟩
      · rw [htext]
        rintro ⟨hc, -⟩
        cases hc
  · exact Checked.created habsent hwritable hfiles
  · exact Checked.cut habsent hcreatable hnot hfiles
  · exact Checked.failed hinvalid hkept hfiles

/-! ## `--check` -/

/-- The path that a command line chooses. -/
def configPath (env : Env) (cli : Cli) : Path := cli.config.getD (defaultConfigPath env)

/-- **A pure check**: the files stay, no signal is sent, and success means that the file
at the chosen path is a valid configuration. -/
structure PureCheck (env : Env) (cli : Cli) (files : Path → Entry) : Prop where
  unchanged : filesAfter env cli files = files
  signals : ∀ target, .kill target .term ∈ effects env cli files → env.kill target .term = false
  success : status (outcome env cli files) = 0 ↔ ValidConfig env (files (configPath env cli))

/-- What a `stop` with this recorded PID leaves alone: it finds a running process that it
cannot signal, or none and a PID file that it cannot remove. -/
def StopFails (env : Env) (pid : ℕ) : Prop :=
  (env.kill (asI32 pid) .probe = true → env.kill (asI32 pid) .term = false) ∧
    (env.kill (asI32 pid) .probe = false → env.remove (pidFilePath env) ≠ none)

/-- **Where `--check` is a pure check**: a check or a start finds a file, or cannot create
one even empty; `version` finds a valid configuration; `stop` finds none, and fails. -/
def Harmless (env : Env) (cli : Cli) (files : Path → Entry) : Prop :=
  match cli.command with
  | some .version => ValidConfig env (files (configPath env cli))
  | some .stop => ¬ ValidConfig env (files (configPath env cli)) ∧
      ∀ pid, recorded env files = some pid → StopFails env pid
  | _ => ¬ (files (configPath env cli) = .absent ∧ Creatable env (configPath env cli))

theorem run_check (hcheck : cli.check = true)
    (hc : cli.command = none ∨ ∃ foreground, cli.command = some (.start foreground)) :
    run env cli = check env (configPath env cli) := by
  unfold run
  rcases hc with hc | ⟨foreground, hc⟩
  · rw [hc, hcheck]
    rfl
  · rw [hc, hcheck]
    rfl

/-- A check is pure unless it creates the configuration. -/
theorem pureCheck_check (hcheck : cli.check = true)
    (hc : cli.command = none ∨ ∃ foreground, cli.command = some (.start foreground)) :
    PureCheck env cli files ↔
      ¬ (files (configPath env cli) = .absent ∧ Creatable env (configPath env cli)) := by
  have hstop : cli.command ≠ some .stop := by
    rcases hc with hc | ⟨foreground, hc⟩ <;> simp [hc]
  have hterm : ∀ target, .kill target .term ∈ effects env cli files →
      env.kill target .term = false := by
    intro target h
    cases no_term hstop h
  rcases hrun : run env cli ⟨files, []⟩ with ⟨o, w'⟩
  have hends : Checked env (configPath env cli) ⟨files, []⟩ o w' := by
    have h := check_ends env (configPath env cli) ⟨files, []⟩
    rw [← run_check hcheck hc, Prog.Ends, hrun] at h
    exact h
  have ho : outcome env cli files = o := by rw [outcome, hrun]
  have hf : filesAfter env cli files = w'.files := by rw [filesAfter, hrun]
  constructor
  · rintro ⟨hfiles, -, -⟩ ⟨habsent, hcreatable⟩
    rw [hf] at hfiles
    cases hends with
    | valid hvalid => exact hvalid.present habsent
    | created _ _ hcreated =>
      rw [hfiles, habsent] at hcreated
      cases hcreated
    | cut _ _ _ hcut =>
      rw [hfiles, habsent] at hcut
      cases hcut
    | failed _ hkept _ => exact hkept ⟨habsent, hcreatable⟩
  · intro h
    refine ⟨?_, hterm, ?_⟩
    · rw [hf]
      cases hends with
      | valid _ => rfl
      | created habsent hwritable _ => exact absurd ⟨habsent, hwritable.1⟩ h
      | cut habsent hcreatable _ _ => exact absurd ⟨habsent, hcreatable⟩ h
      | failed _ _ hfiles => exact hfiles
    · rw [ho]
      cases hends with
      | valid hvalid => exact iff_of_true rfl hvalid
      | created habsent hwritable _ => exact absurd ⟨habsent, hwritable.1⟩ h
      | cut habsent hcreatable _ _ => exact absurd ⟨habsent, hcreatable⟩ h
      | failed hinvalid _ _ => exact iff_of_false (by simp [status]) hinvalid

theorem removed_files (env : Env) (w : World) : (removed env w).files = w.files ↔
    w.files (pidFilePath env) = .absent ∨ env.remove (pidFilePath env) ≠ none := by
  unfold removed
  split
  · rename_i h
    exact iff_of_true rfl h
  · rename_i h
    refine iff_of_false (fun heq => ?_) h
    have hpid : Entry.absent = w.files (pidFilePath env) :=
      (if_pos rfl).symm.trans (congrFun heq (pidFilePath env))
    exact h (Or.inl hpid.symm)

/-- A recorded PID is in a file that is there. -/
theorem present_of_recorded {pid : ℕ} (h : recorded env files = some pid) :
    files (pidFilePath env) ≠ .absent := by
  intro habsent
  rw [recorded, habsent] at h
  cases h

/-- A run that fails and delivers no signal is pure where it leaves the files, and there is
no valid configuration. -/
theorem pureCheck_failed {e : AppError} {w' : World} (hrun : run env cli ⟨files, []⟩ = (.err e, w'))
    (hterm : ∀ target, .kill target .term ∈ w'.log → env.kill target .term = false) :
    PureCheck env cli files ↔ w'.files = files ∧ ¬ ValidConfig env (files (configPath env cli)) := by
  have ho : outcome env cli files = .err e := by rw [outcome, hrun]
  have hf : filesAfter env cli files = w'.files := by rw [filesAfter, hrun]
  have hl : effects env cli files = w'.log := by rw [effects, hrun]
  constructor
  · rintro ⟨hfiles, -, h⟩
    rw [hf] at hfiles
    refine ⟨hfiles, fun hv => ?_⟩
    have hs := h.2 hv
    rw [ho] at hs
    cases hs
  · rintro ⟨hfiles, hv⟩
    refine ⟨hf.trans hfiles, ?_, ?_⟩
    · rw [hl]
      exact hterm
    · rw [ho]
      exact iff_of_false (by simp [status]) hv

/-- A run that delivers a signal is not pure. -/
theorem not_pureCheck_of_term {target : ℤ} (hmem : .kill target .term ∈ effects env cli files)
    (hterm : env.kill target .term = true) : ¬ PureCheck env cli files := by
  intro h
  have hfalse := h.signals target hmem
  rw [hterm] at hfalse
  cases hfalse

/-- A `stop` with a recorded PID. -/
theorem pureCheck_recorded (hrun : run env cli ⟨files, []⟩ = stopDaemon env ⟨files, []⟩) {pid : ℕ}
    (hr : recorded env files = some pid) : PureCheck env cli files ↔
      ¬ ValidConfig env (files (configPath env cli)) ∧ StopFails env pid := by
  rw [stopDaemon_eq] at hrun
  simp only [hr] at hrun
  unfold StopFails
  cases hprobe : env.kill (asI32 pid) .probe with
  | true =>
    cases hterm : env.kill (asI32 pid) .term with
    | true =>
      simp only [hprobe, hterm, if_true] at hrun
      have hmem : .kill (asI32 pid) .term ∈ effects env cli files := by
        rw [effects, hrun]
        unfold removed
        split <;> simp [World.add]
      exact iff_of_false (not_pureCheck_of_term hmem hterm) fun h => Bool.noConfusion (h.2.1 rfl)
    | false =>
      simp only [hprobe, hterm, if_true, Bool.false_eq_true, if_false] at hrun
      rw [pureCheck_failed hrun]
      · exact ⟨fun h => ⟨h.2, fun _ => rfl, fun hf => Bool.noConfusion hf⟩, fun h => ⟨rfl, h.1⟩⟩
      · intro target h
        have ht : target = asI32 pid := by simpa [World.add] using h
        rw [ht]
        exact hterm
  | false =>
    -- no process is running, and the stale file goes
    simp only [hprobe, Bool.false_eq_true, if_false] at hrun
    rw [pureCheck_failed hrun]
    · have hfiles : (removed env ((⟨files, []⟩ : World).add (.kill (asI32 pid) .probe))).files =
          files ↔ files (pidFilePath env) = .absent ∨ env.remove (pidFilePath env) ≠ none :=
        removed_files env ((⟨files, []⟩ : World).add (.kill (asI32 pid) .probe))
      rw [hfiles, or_iff_right (present_of_recorded hr)]
      exact ⟨fun h => ⟨h.2, fun ht => Bool.noConfusion ht, fun _ => h.1⟩, fun h => ⟨h.2.2 rfl, h.1⟩⟩
    · intro target h
      unfold removed at h
      split at h <;> simp [World.add] at h

/-- A `stop` is pure where it fails, and there is no valid configuration. -/
theorem pureCheck_stop (hc : cli.command = some .stop) : PureCheck env cli files ↔
    ¬ ValidConfig env (files (configPath env cli)) ∧
      ∀ pid, recorded env files = some pid → StopFails env pid := by
  have hrun : run env cli ⟨files, []⟩ = stopDaemon env ⟨files, []⟩ := by
    unfold run
    rw [hc]
  cases hr : recorded env files with
  | none =>
    rw [stopDaemon_eq] at hrun
    simp only [hr] at hrun
    rw [pureCheck_failed hrun fun _ h => by cases h]
    constructor
    · intro h
      refine ⟨h.2, fun pid hp => ?_⟩
      cases hp
    · intro h
      exact ⟨rfl, h.1⟩
  | some pid =>
    have hall : (∀ pid', some pid = some pid' → StopFails env pid') ↔ StopFails env pid :=
      ⟨fun h => h pid rfl, fun h pid' hp => Option.some.inj hp ▸ h⟩
    rw [hall]
    exact pureCheck_recorded hrun hr

theorem pureCheck_version (hc : cli.command = some .version) : PureCheck env cli files ↔
    ValidConfig env (files (configPath env cli)) := by
  have hrun : run env cli ⟨files, []⟩ = (.ok (), (⟨files, []⟩ : World).add (.print "1.4.0".toList)) := by
    unfold run
    rw [hc]
    rfl
  have ho : outcome env cli files = .ok () := by rw [outcome, hrun]
  have hf : filesAfter env cli files = files := by
    rw [filesAfter, hrun]
    rfl
  have hterm : ∀ target, .kill target .term ∈ effects env cli files →
      env.kill target .term = false := by
    intro target h
    cases no_term (by simp [hc]) h
  constructor
  · rintro ⟨-, -, h⟩
    rw [ho] at h
    exact h.1 rfl
  · intro h
    refine ⟨hf, hterm, ?_⟩
    rw [ho]
    exact iff_of_true rfl h

/-- **Exactly where `--check` is a pure check.** -/
theorem pure_check_iff (hcheck : cli.check = true) :
    PureCheck env cli files ↔ Harmless env cli files := by
  unfold Harmless
  rcases hc : cli.command with _ | foreground | _ | _
  · exact pureCheck_check hcheck (Or.inl hc)
  · exact pureCheck_check hcheck (Or.inr ⟨foreground, hc⟩)
  · exact pureCheck_stop hc
  · exact pureCheck_version hc

/-- `retrotls --check`. -/
def checkCli : Cli := ⟨none, none, true, none⟩

theorem pure_check_iff_noConfig : PureCheck calm checkCli noConfig.files ↔
    Harmless calm checkCli noConfig.files :=
  pure_check_iff rfl

/-- **A check creates the configuration it does not find**, and reports success. -/
theorem check_creates : filesAfter calm checkCli noConfig.files (defaultConfigPath calm) =
      .text defaultConfigContent ∧
    status (outcome calm checkCli noConfig.files) = 0 ∧
      ¬ PureCheck calm checkCli noConfig.files := by
  have hcreated : filesAfter calm checkCli noConfig.files (defaultConfigPath calm) =
      .text defaultConfigContent := by decide +kernel
  refine ⟨hcreated, by decide +kernel, fun h => ?_⟩
  rw [h.unchanged] at hcreated
  cases hcreated

end Retrotls.Run
