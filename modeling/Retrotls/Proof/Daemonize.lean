import Retrotls.Proof.FirstStart
import Retrotls.Proof.Kill
import Retrotls.Proof.Reexec

/-!
# A start in the background, and one in the foreground

A start in the background ends once its child is spawned, and the child is a start in the
foreground from the files that its parent has left.

* `serve_after`: what has been done before does not change what a serving process does.
* `unclaimed_idem`: the check whether a daemon is running, made by the parent, leaves
  nothing to the same check in the child.
* `background_is_foreground`: **the parent and its child do together what one start in the
  foreground does.**
-/

namespace Retrotls

/-- What lasts: all but signals and the child. -/
def Effect.lasts : Effect → Bool
  | .kill _ _ => false
  | .spawn _ => false
  | _ => true

def World.lasting (w : World) : List Effect := w.log.filter Effect.lasts

/-- **`v` is `w` with more done before.** -/
structure After (done : List Effect) (w v : World) : Prop where
  files : v.files = w.files
  lasting : v.lasting = done ++ w.lasting

theorem After.trans {done done' : List Effect} {u w v : World} (h : After done u w)
    (h' : After done' w v) : After (done' ++ done) u v :=
  ⟨h'.files.trans h.files, by rw [h'.lasting, h.lasting, List.append_assoc]⟩

namespace Run

open Args

variable {env env' : Env} {cli : Cli} {files : Path → Entry} {done : List Effect}

/-! ## What has been done before -/

theorem emit_after {ε : Type} (e : Effect) :
    Prog.Respects (After done) (emit e : Prog World ε Unit) := by
  refine Prog.respects_modify fun w v h => ⟨h.files, ?_⟩
  have hlasting : v.log.filter Effect.lasts = done ++ w.log.filter Effect.lasts := h.lasting
  show (v.log ++ [e]).filter Effect.lasts = done ++ (w.log ++ [e]).filter Effect.lasts
  rw [List.filter_append, List.filter_append, hlasting, List.append_assoc]

theorem setEntry_after {ε : Type} (path : Path) (entry : Entry) :
    Prog.Respects (After done) (setEntry path entry : Prog World ε Unit) := by
  refine Prog.respects_modify fun w v h => ⟨?_, h.lasting⟩
  rw [h.files]

theorem readToString_after {ε : Type} (path : Path) :
    Prog.Respects (After done) (readToString path : Prog World ε (Except IoError Str)) := by
  refine Prog.respects_get_bind (fun w v h => ?_) fun w => Prog.respects_pure _
  rw [h.files]

theorem createParent_after (path : Path) : Prog.Respects (After done) (createParent env path) := by
  unfold createParent createDirAll
  split
  · split
    · exact Prog.respects_throw _
    · exact emit_after _
  · exact Prog.respects_pure _

theorem write_after (path : Path) (content : Str) :
    Prog.Respects (After done) (write env path content) := by
  unfold write
  split
  · exact Prog.respects_throw _
  · exact Prog.respects_bind (setEntry_after _ _) fun _ =>
      Prog.respects_bind (emit_after _) fun _ => Prog.respects_throw _
  · exact Prog.respects_bind (setEntry_after _ _) fun _ => emit_after _

theorem openAppend_after (path : Path) : Prog.Respects (After done) (openAppend env path) := by
  unfold openAppend
  split
  · exact Prog.respects_throw _
  · refine Prog.respects_get_bind (fun w v h => ?_) fun w => ?_
    · rw [h.files]
    · exact Prog.respects_bind (setEntry_after _ _) fun _ => emit_after _

theorem trace_after (level : Level) (line : Str) :
    Prog.Respects (After done) (trace env level line) := by
  refine Prog.respects_get_bind (fun w v h => ?_) fun w => ?_
  · rw [h.files]
  · dsimp only
    split
    · exact Prog.respects_bind (setEntry_after _ _) fun _ => emit_after _
    · exact Prog.respects_pure _

theorem removePidFile_after : Prog.Respects (After done) (removePidFile env) := by
  refine Prog.respects_ignore (Prog.respects_get_bind (fun w v h => ?_) fun w => ?_)
  · rw [h.files]
  · split
    · exact Prog.respects_throw _
    · split
      · exact Prog.respects_throw _
      · exact Prog.respects_bind (setEntry_after _ _) fun _ => emit_after _

theorem loadConfig_after (path : Path) : Prog.Respects (After done) (loadConfig env path) := by
  have hcreate : Prog.Respects (After done) (createDefaultConfig env path) :=
    Prog.respects_bind (Prog.respects_mapErr _ (createParent_after path)) fun _ =>
      Prog.respects_mapErr _ (write_after path _)
  refine Prog.respects_bind (readToString_after path) fun r => ?_
  cases r with
  | ok content =>
    cases h : env.parseYaml content with
    | ok config =>
      simp only [h]
      exact Prog.respects_pure config
    | error source =>
      simp only [h]
      exact Prog.respects_throw _
  | error source =>
    dsimp only
    split
    · exact Prog.respects_bind hcreate fun _ => Prog.respects_exit 0
    · exact Prog.respects_throw _

theorem initLogging_after (level : Str) : Prog.Respects (After done) (initLogging env level) :=
  Prog.respects_bind (Prog.respects_ignore (createParent_after _)) fun _ =>
    Prog.respects_bind (Prog.respects_ignore (openAppend_after _)) fun _ => emit_after _

theorem spawnListeners_after (idx : ℕ) (listeners : List ListenerConfig) :
    Prog.Respects (After done) (spawnListeners env idx listeners) := by
  induction listeners generalizing idx with
  | nil => exact Prog.respects_pure ()
  | cons listener rest ih =>
    refine Prog.respects_bind (Prog.respects_ofExcept _) fun _ => ?_
    split
    · exact Prog.respects_throw _
    · exact Prog.respects_bind (emit_after _) fun _ =>
        Prog.respects_bind (trace_after _ _) fun _ => ih (idx + 1)

theorem waitForShutdownSignal_after : Prog.Respects (After done) (waitForShutdownSignal env) := by
  refine Prog.respects_bind (emit_after _) fun _ => ?_
  refine Prog.respects_get_bind (fun w v h => ?_) fun w => setEntry_after _ _
  rw [h.files]

theorem joinListeners_after (idx : ℕ) (listeners : List ListenerConfig) :
    Prog.Respects (After done) (joinListeners env idx listeners) := by
  induction listeners generalizing idx with
  | nil => exact Prog.respects_pure ()
  | cons listener rest ih =>
    unfold joinListeners
    split
    · exact Prog.respects_throw _
    · exact ih (idx + 1)

theorem shutdown_after (config : Config) : Prog.Respects (After done) (shutdown env config) := by
  have hdrain : Prog.Respects (After done) (drain env config) := by
    unfold drain
    split
    · exact trace_after _ _
    · exact Prog.respects_pure _
  refine Prog.respects_bind (trace_after _ _) fun _ => ?_
  refine Prog.respects_bind (joinListeners_after 0 _) fun _ => ?_
  refine Prog.respects_bind hdrain fun _ => ?_
  exact Prog.respects_bind removePidFile_after fun _ => trace_after _ _

/-- **A serving process** does the same whatever has been done before. -/
theorem serve_after (cli : Cli) (path : Path) :
    Prog.Respects (After done) (serve env cli path) := by
  have hpid : Prog.Respects (After done) (writePidFile env env.pid) :=
    Prog.respects_bind (createParent_after _) fun _ => write_after _ _
  refine Prog.respects_bind (Prog.respects_mapErr _ hpid) fun _ => ?_
  refine Prog.respects_bind (loadConfig_after path) fun config => ?_
  refine Prog.respects_bind (Prog.respects_ofExcept _) fun _ => ?_
  refine Prog.respects_bind (initLogging_after _) fun _ => ?_
  refine Prog.respects_bind (trace_after _ _) fun _ => ?_
  refine Prog.respects_bind (spawnListeners_after 0 _) fun _ => ?_
  exact Prog.respects_bind waitForShutdownSignal_after fun _ => shutdown_after config

/-! ## The check, made twice -/

/-- What the check whether a daemon is running leaves where none is. -/
def unclaimed (env : Env) (files : Path → Entry) : World :=
  match recorded env files with
  | none => ⟨files, []⟩
  | some _ => removed env ⟨files, []⟩

theorem checkRunning_unclaimed (h : ¬ Running env files) :
    (checkRunning env).Ends ⟨files, []⟩ fun o w => o = .ok () ∧ After [] (unclaimed env files) w := by
  unfold Prog.Ends unclaimed
  rw [checkRunning_eq]
  dsimp only
  cases hr : recorded env files with
  | none => exact ⟨rfl, rfl, rfl⟩
  | some pid =>
    have hk : env.kill (asI32 pid) .probe = false := by
      rw [← Bool.not_eq_true]
      exact fun hk => h ⟨pid, hr, hk⟩
    have hprobed : After [] ⟨files, []⟩ (World.add ⟨files, []⟩ (.kill (asI32 pid) .probe)) := ⟨rfl, rfl⟩
    have hremoved := @removePidFile_after env [] _ _ hprobed
    rw [removePidFile_eq, removePidFile_eq] at hremoved
    dsimp only
    rw [hk, if_neg Bool.false_ne_true]
    exact ⟨rfl, hremoved.2⟩

/-- Where the PID file has not been removed, nothing has been done. -/
theorem unclaimed_cases (env : Env) (files : Path → Entry) :
    recorded env (unclaimed env files).files = none ∨ unclaimed env files = ⟨files, []⟩ := by
  unfold unclaimed
  cases hr : recorded env files with
  | none => exact Or.inr rfl
  | some pid =>
    dsimp only
    unfold removed
    split
    · exact Or.inr rfl
    · refine Or.inl ?_
      unfold recorded
      dsimp only
      rw [if_pos rfl]
      rfl

/-- **The second check has nothing to do.** -/
theorem unclaimed_idem (env : Env) (files : Path → Entry) :
    unclaimed env (unclaimed env files).files = ⟨(unclaimed env files).files, []⟩ := by
  rcases unclaimed_cases env files with h | h
  · rw [unclaimed, h]
  · rw [h]
    exact h

theorem unclaimed_running (h : ¬ Running env files) : ¬ Running env (unclaimed env files).files := by
  rintro ⟨pid, hr, hk⟩
  rcases unclaimed_cases env files with hnone | hsame
  · rw [hnone] at hr
    cases hr
  · rw [hsame] at hr
    exact h ⟨pid, hr, hk⟩

/-! ## The parent and its child -/

/-- What the outside answers the child that `env` has spawned with these arguments: it has
the same home directory, and can remove the PID file exactly where its parent can. The rest
is its own. -/
structure ChildOf (env : Env) (child : List Str) (env' : Env) : Prop where
  args : env'.args = child
  home : env'.home = env.home
  remove : env'.remove (pidFilePath env) = env.remove (pidFilePath env)

theorem unclaimed_child {child : List Str} (h : ChildOf env child env') (files : Path → Entry) :
    unclaimed env' files = unclaimed env files := by
  have hpath : pidFilePath env' = pidFilePath env := by
    rw [pidFilePath, pidFilePath, retrotlsHome, retrotlsHome, h.home]
  unfold unclaimed recorded removed
  rw [hpath, h.remove]

/-- Spawning the child does not last. -/
theorem daemonize_after (env : Env) (w : World) : After [] w (daemonize env w).2 := by
  unfold daemonize
  cases env.currentExe with
  | some source => exact ⟨rfl, rfl⟩
  | none =>
    cases env.spawn with
    | some source => exact ⟨rfl, rfl⟩
    | none => exact ⟨rfl, (List.filter_append _ _).trans (List.append_nil _)⟩

/-- **The parent** leaves what its check leaves. -/
theorem parent_after {child : List Str} (hc : cli.command = some (.start false))
    (hspawn : .spawn child ∈ effects env cli files) :
    After [] (unclaimed env files) (run env cli ⟨files, []⟩).2 := by
  obtain ⟨rfl, hcheck, -⟩ := spawned hspawn
  have hrun : run env cli = start env cli false (configPath env cli) := by
    unfold run
    rw [hc, hcheck]
    rfl
  have hno : ¬ Running env files := by
    rintro ⟨pid, hr, hk⟩
    have heq := @start_running env cli (configPath env cli) files pid hr hk false
    rw [effects, hrun, heq] at hspawn
    exact absurd (List.mem_singleton.1 hspawn) (by simp)
  obtain ⟨hok, hafter⟩ := checkRunning_unclaimed hno
  rw [hrun, start_eq (Prod.ext hok rfl)]
  exact hafter.trans (daemonize_after env _)

/-- A start in the foreground serves from what its check leaves. -/
theorem foreground_serves (hno : ¬ Running env files) (cli : Cli) (path : Path) :
    ∃ w, After [] (unclaimed env files) w ∧
      start env cli true path ⟨files, []⟩ = serve env cli path w := by
  obtain ⟨hok, hafter⟩ := checkRunning_unclaimed hno
  exact ⟨_, hafter, start_eq (Prod.ext hok rfl) true⟩

/-- **The parent and its child** do what one start in the foreground does: it ends as the
child does, leaves the same files, and does in the same order all that lasts. -/
structure Replaces (env env' : Env) (cli : Cli) (files : Path → Entry) : Prop where
  ends : outcome env' (inForeground cli) (filesAfter env cli files) =
    outcome env' (inForeground cli) files
  leaves : filesAfter env' (inForeground cli) (filesAfter env cli files) =
    filesAfter env' (inForeground cli) files
  does : (effects env cli files ++
      effects env' (inForeground cli) (filesAfter env cli files)).filter Effect.lasts =
    (effects env' (inForeground cli) files).filter Effect.lasts

/-- **A start in the background is one in the foreground.** Where a `start` without `--`
spawns its child, the child is a start in the foreground with the same configuration and
log level, and with its parent does what that start alone does, if the recorded PID is
still no process's. -/
theorem background_is_foreground {clap : List Str → Option Cli} (hclap : Documented clap)
    (hcli : clap env.args = some cli) (hc : cli.command = some (.start false))
    (hdash : "--".toList ∉ env.args) {child : List Str}
    (hspawn : .spawn child ∈ effects env cli files) (hchild : ChildOf env child env')
    (hno : ¬ Running env' files) :
    clap env'.args = some (inForeground cli) ∧ Replaces env env' cli files := by
  obtain ⟨hargs, hcheck, hback⟩ := spawned hspawn
  have hline := (hclap.parse _ _).1 hcli
  constructor
  · have hparse := parse_child hline ⟨hcheck, hback⟩
    rw [← childArgs_eq hline ⟨hcheck, hback⟩, ← hargs, if_pos ⟨hc, hdash⟩] at hparse
    rw [hchild.args, hclap.parse]
    exact parseArgs_iff.1 hparse
  · set fore := inForeground cli
    set path := configPath env' fore
    have hparent := parent_after hc hspawn
    have hrun : run env' fore = start env' fore true path := run_foreground rfl hcheck
    -- the check of the one start, and the second check of the child
    obtain ⟨v, hv, hstart⟩ := foreground_serves hno fore path
    obtain ⟨w, hw, hstart'⟩ := foreground_serves (unclaimed_running hno) fore path
    rw [unclaimed_idem] at hw
    rw [unclaimed_child hchild] at hv hw hstart'
    rw [← show filesAfter env cli files = (unclaimed env files).files from hparent.files,
      ← hrun] at hstart'
    rw [← hrun] at hstart
    have hafter : After (unclaimed env files).lasting w v := by
      refine ⟨hv.files.trans hw.files.symm, ?_⟩
      rw [hv.lasting, hw.lasting]
      exact (List.append_nil _).symm
    obtain ⟨ho, hs⟩ := serve_after fore path w v hafter
    rw [← hstart, ← hstart'] at ho hs
    refine ⟨ho, hs.files.symm, ?_⟩
    rw [List.filter_append]
    exact (congrArg (· ++ _) hparent.lasting).trans hs.lasting.symm

/-- A PID file that has been left behind, and the default configuration. -/
def staleFiles : Path → Entry := fun path =>
  if path = defaultConfigPath calm then .text defaultConfigContent
  else pidFileWith "99999".toList path

/-- The child of `retrotls --log-level debug start`. -/
def childEnv : Env :=
  { startEnv with
    args := startEnv.args ++ [foregroundArg]
    pid := 4343
    parseYaml := parseOnly defaultConfigContent defaultConfig }

theorem background_is_foreground_stale :
    (parseArgs childEnv.args = some (inForeground startLine) ∧
      Replaces startEnv childEnv startLine staleFiles) ∧
    .serve ∈ effects childEnv (inForeground startLine)
      (filesAfter startEnv startLine staleFiles) := by
  have hcli : parseArgs startEnv.args = some startLine := by decide +kernel
  have hspawn : .spawn (startEnv.args ++ [foregroundArg]) ∈ effects startEnv startLine staleFiles := by
    decide +kernel
  have hno : ¬ Running childEnv staleFiles := by
    rintro ⟨pid, -, hk⟩
    cases hk
  have hserve : .serve ∈ effects childEnv (inForeground startLine)
      (filesAfter startEnv startLine staleFiles) := by decide +kernel
  exact ⟨background_is_foreground parseArgs_documented hcli rfl (by decide) hspawn ⟨rfl, rfl, rfl⟩ hno,
    hserve⟩

end Run

end Retrotls
