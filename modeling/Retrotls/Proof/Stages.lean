import Retrotls.Proof.Agree
import Retrotls.Proof.Outcome
import Retrotls.Proof.Sequential

/-!
# The stages of a start

What a `start` does to the outside takes it through stages, each action at its stage only:
it looks for the recorded process, removes its file, writes its own PID, sets up the log,
binds its listeners in order, serves, and removes its file. The lines of the log come in
between. The traffic is not among these actions.

* `Stage.next`: the stage after an action, if it may be done at that stage.
* `start_stages`: **every start goes through the stages**, whatever fails, and how it ends tells
  how far it came.
* `behind_exec`: what is behind a start at each stage.
* `start_order`: **the order of a start's actions**, from the stages.
-/

namespace Retrotls.Run

/-- How far a start is. -/
inductive Stage
  | begun
  /-- The recorded process is looked for. -/
  | probed
  /-- Its PID file is removed. -/
  | cleared
  /-- The PID file has the own PID. -/
  | owner
  /-- The first listeners are bound. -/
  | listening (count : ℕ)
  | serving
  /-- The PID file is removed again. -/
  | stopped
  /-- The child is spawned, or the default configuration written. -/
  | ended
  /-- The write of the own PID was cut short. -/
  | pidCut
  /-- The write of the default configuration was. -/
  | configCut
  deriving DecidableEq

/-- The own PID is not written yet. -/
def Stage.isEarly : Stage → Bool
  | begun | probed | cleared => true
  | _ => false

/-- The log is set up. -/
def Stage.logs : Stage → Bool
  | listening _ | serving | stopped => true
  | _ => false

/-- Nothing is done any more. -/
def Stage.isOver : Stage → Bool
  | ended | pidCut | configCut => true
  | _ => false

/-- The configuration in a file, if it is valid. -/
def configIn (env : Env) : Entry → Option Config
  | .text content =>
    match env.parseYaml content with
    | .ok config => if config.validate env.http = .ok () then some config else none
    | .error _ => none
  | _ => none

/-- The configuration that a start finds, after it has written its PID. -/
def configured (env : Env) (cli : Cli) (files : Path → Entry) : Option Config :=
  configIn env (seen env ⟨files, []⟩ (configPath env cli))

/-- Where listener `idx` of a configuration listens. -/
def addressAt (config : Option Config) (idx : ℕ) : Option SocketAddr :=
  config.bind fun c => c.listeners[idx]?.map (·.listen)

/-- **The stage after an action**, if the action may be done. -/
def Stage.next (env : Env) (cli : Cli) (config : Option Config) (s : Stage) : Effect → Option Stage
  | .kill _ signal => if s = begun ∧ signal = .probe then some probed else none
  | .remove path =>
    if path = pidFilePath env ∧ s = probed then some cleared
    else if path = pidFilePath env ∧ s = serving then some stopped
    else none
  | .createDirAll _ => if s.isEarly = true ∨ s = owner then some s else none
  | .write path content =>
    if path = pidFilePath env ∧ content = Retrotls.writePidFile env.pid ∧ s.isEarly = true then
      some owner
    else if path = configPath env cli ∧ content = defaultConfigContent ∧ s = owner then some ended
    else none
  | .writePart path written =>
    if path = pidFilePath env ∧ written.isPrefixOf (Retrotls.writePidFile env.pid) = true ∧
        s.isEarly = true then some pidCut
    else if path = configPath env cli ∧ written.isPrefixOf defaultConfigContent = true ∧
        s = owner then some configCut
    else none
  | .spawn args => if args = childArgs env ∧ s.isEarly = true then some ended else none
  | .openAppend path => if path = logFilePath env ∧ s = owner then some owner else none
  | .append path _ => if path = logFilePath env ∧ s.logs = true then some s else none
  | .logging level =>
    if s = owner ∧ config.map (fun c => (cli.logLevel.or c.logLevel).getD "info".toList) =
      some level then some (listening 0) else none
  | .listen addr =>
    match s with
    | listening count => if addressAt config count = some addr then some (listening (count + 1)) else none
    | _ => none
  | .serve => if config.map (fun c => listening c.listeners.length) = some s then some serving else none
  | .print _ => none

/-- **How a start ends tells how far it came.** -/
def Stage.Tells (config : Option Config) (s : Stage) : Outcome AppError Unit → Prop
  | .ok () => s = serving ∨ s = stopped
  | .exit status => status = 0 ∧ s = ended
  | .err (.alreadyRunning _) => s = probed
  | .err (.io _) => s.isEarly = true ∨ s = pidCut
  | .err (.configRead _ _) | .err (.configParse _ _) => s = owner
  | .err (.configValidation _) => s = owner ∨ s = configCut
  | .err (.bindFailed addr _) => ∃ count, s = listening count ∧ addressAt config count = some addr
  | .err (.listenerTask _) => s = serving
  | .err (.configNotFound _) | .err .notRunning => False

variable {env : Env} {cli : Cli} {config : Option Config} {s s' : Stage} {w : World} {path : Path}

/-- The actions so far lead to the stage. -/
def At (env : Env) (cli : Cli) (config : Option Config) (s : Stage) (w : World) : Prop :=
  exec (Stage.next env cli config) .begun w.log = some s

/-- A start ends at a stage that its end tells. -/
def Told (env : Env) (cli : Cli) (config : Option Config) (o : Outcome AppError Unit) (w : World) :
    Prop := ∃ s, At env cli config s w ∧ s.Tells config o

/-! ## Single actions -/

theorem at_add {e : Effect} (hw : At env cli config s w)
    (h : Stage.next env cli config s e = some s') : At env cli config s' (w.add e) :=
  exec_concat.2 ⟨s, hw, h⟩

/-- Directories are made before the configuration is read. -/
theorem createParent_at (hs : s.isEarly = true ∨ s = .owner) (hw : At env cli config s w)
    (path : Path) : (createParent env path).Ends w fun o w' =>
      (∀ n, o ≠ .exit n) ∧ At env cli config s w' := by
  have hmake : ∀ p, Prog.Keeps (At env cli config s)
      (emit (.createDirAll p) : Prog World IoError Unit) :=
    fun p w hw => at_add hw (if_pos hs)
  exact ⟨createParent_noExit path w, createParent_keeps hmake path w hw⟩

theorem write_at {content : Str} {s'' : Stage} (hw : At env cli config s w)
    (h : Stage.next env cli config s (.write path content) = some s')
    (hcut : ∀ count, Stage.next env cli config s (.writePart path (content.take count)) = some s'') :
    (write env path content).Ends w fun o w' =>
      (o = .ok () ∧ At env cli config s' w') ∨
        ((∃ e, o = .err e) ∧ (At env cli config s w' ∨ At env cli config s'' w')) := by
  have hput : ∀ entry, At env cli config s (w.put path entry) := fun _ => hw
  refine (write_ends env path content w).mono ?_
  rintro o w' hwrote
  cases hwrote with
  | whole _ _ => exact Or.inl ⟨rfl, at_add (hput _) h⟩
  | part _ _ => exact Or.inr ⟨⟨_, rfl⟩, Or.inr (at_add (hput _) (hcut _))⟩
  | kept _ => exact Or.inr ⟨⟨_, rfl⟩, Or.inl hw⟩

/-- A line of the log. -/
theorem logged_at (hs : s.logs = true) (hw : At env cli config s w) (level : Level) (line : Str) :
    At env cli config s (logged env level line w) := by
  unfold logged
  dsimp only
  split
  · exact at_add (w := ⟨_, w.log⟩) hw (if_pos ⟨rfl, hs⟩)
  · exact hw

theorem trace_at (hs : s.logs = true) (level : Level) (line : Str) :
    Prog.Keeps (At env cli config s) (trace env level line) := by
  intro w hw
  rw [trace_eq]
  exact logged_at hs hw level line

/-- What is written of a text is a beginning of it. -/
theorem take_isPrefixOf (content : Str) (count : ℕ) : (content.take count).isPrefixOf content = true :=
  List.isPrefixOf_iff_prefix.2 (List.take_prefix count content)

theorem removed_at (hw : At env cli config s w)
    (h : Stage.next env cli config s (.remove (pidFilePath env)) = some s') :
    At env cli config s (removed env w) ∨ At env cli config s' (removed env w) := by
  unfold removed
  split
  · exact Or.inl hw
  · exact Or.inr (at_add hw h)

/-! ## The parts -/

/-- Before the own PID is written. -/
theorem checkRunning_at (env : Env) (cli : Cli) (config : Option Config) (files : Path → Entry) :
    (checkRunning env).Ends ⟨files, []⟩ fun o w' =>
      (o = .ok () ∧ ∃ s : Stage, s.isEarly = true ∧ At env cli config s w') ∨
        ((∃ pid, o = .err (.alreadyRunning pid)) ∧ At env cli config .probed w') := by
  have hbegun : At env cli config .begun ⟨files, []⟩ := rfl
  unfold Prog.Ends
  rw [checkRunning_eq]
  cases recorded env files with
  | none => exact Or.inl ⟨rfl, .begun, rfl, hbegun⟩
  | some pid =>
    have hprobed : At env cli config .probed (World.add ⟨files, []⟩ (.kill (asI32 pid) .probe)) :=
      at_add hbegun (by simp [Stage.next])
    dsimp only
    split
    · exact Or.inr ⟨⟨pid, rfl⟩, hprobed⟩
    · refine Or.inl ⟨rfl, ?_⟩
      rcases removed_at hprobed (if_pos ⟨rfl, rfl⟩) with h | h
      · exact ⟨.probed, rfl, h⟩
      · exact ⟨.cleared, rfl, h⟩

theorem writePidFile_at (hs : s.isEarly = true) (hw : At env cli config s w) :
    (writePidFile env env.pid).Ends w fun o w' =>
      (o = .ok () ∧ At env cli config .owner w') ∨
        ((∃ e, o = .err e) ∧ (At env cli config s w' ∨ At env cli config .pidCut w')) := by
  unfold writePidFile
  refine Prog.ends_bind.2 ((createParent_at (Or.inl hs) hw _).mono ?_)
  rintro o w₁ ⟨hexit, hw₁⟩
  cases o with
  | ok u =>
    exact write_at hw₁ (if_pos ⟨rfl, rfl, hs⟩) fun _ => if_pos ⟨rfl, take_isPrefixOf _ _, hs⟩
  | err e => exact Or.inr ⟨⟨e, rfl⟩, Or.inl hw₁⟩
  | exit n => exact absurd rfl (hexit n)

theorem initLogging_at {c : Config} (hc : config = some c) (hw : At env cli config .owner w) :
    (initLogging env ((cli.logLevel.or c.logLevel).getD "info".toList)).Ends w fun o w' =>
      o = .ok () ∧ At env cli config (.listening 0) w' := by
  have hparent : Prog.Keeps (At env cli config .owner) (createParent env (logFilePath env)) :=
    fun w hw => (createParent_at (Or.inr rfl) hw _).2
  have hopen : Prog.Keeps (At env cli config .owner) (openAppend env (logFilePath env)) := by
    unfold openAppend
    split
    · exact Prog.keeps_throw _
    · exact fun w hw => at_add (w := ⟨_, w.log⟩) hw (if_pos ⟨rfl, rfl⟩)
  unfold initLogging
  refine Prog.ends_bind_ok (Prog.ends_ignore (createParent_noExit _) hparent hw) fun w₁ hw₁ => ?_
  refine Prog.ends_bind_ok (Prog.ends_ignore (openAppend_noExit _) hopen hw₁) fun w₂ hw₂ => ?_
  exact ⟨rfl, at_add hw₂ (if_pos ⟨rfl, by rw [hc]; rfl⟩)⟩

/-- **The startup loop**, from listener `idx` on. -/
theorem spawnListeners_at {c : Config} (hc : config = some c)
    (hup : ∀ l ∈ c.listeners, ∃ up, parseUpstream env.http l.upstream = .ok up)
    (rest : List ListenerConfig) (idx : ℕ) (hrest : rest = c.listeners.drop idx)
    (hlen : idx ≤ c.listeners.length) (hw : At env cli config (.listening idx) w) :
    (spawnListeners env idx rest).Ends w fun o w' =>
      (o = .ok () ∧ At env cli config (.listening c.listeners.length) w') ∨
        ∃ addr source, o = .err (.bindFailed addr source) ∧ Told env cli config o w' := by
  induction rest generalizing idx w with
  | nil =>
    have hidx : idx = c.listeners.length :=
      le_antisymm hlen (List.drop_eq_nil_iff.1 hrest.symm)
    exact Or.inl ⟨rfl, hidx ▸ hw⟩
  | cons l rest ih =>
    have hlt : idx < c.listeners.length := by
      by_contra hge
      rw [List.drop_eq_nil_iff.2 (not_lt.1 hge)] at hrest
      cases hrest
    rw [List.drop_eq_getElem_cons hlt] at hrest
    obtain ⟨rfl, hdrop⟩ := List.cons.inj hrest
    have haddr : addressAt config idx = some c.listeners[idx].listen := by
      rw [hc, addressAt, Option.bind_some, List.getElem?_eq_getElem hlt, Option.map_some]
    obtain ⟨up, hp⟩ := hup _ (List.getElem_mem hlt)
    cases hb : env.bind idx with
    | none =>
      have hlisten : Stage.next env cli config (.listening idx) (.listen c.listeners[idx].listen) =
          some (.listening (idx + 1)) := if_pos haddr
      unfold Prog.Ends
      rw [spawnListeners_bound hp hb]
      exact ih (idx + 1) hdrop hlt (logged_at rfl (at_add hw hlisten) _ _)
    | some source =>
      rw [spawnListeners_failed hp hb]
      exact Or.inr ⟨_, source, rfl, .listening idx, hw, idx, rfl, haddr⟩

theorem joinListeners_told (idx : ℕ) (listeners : List ListenerConfig)
    (hw : At env cli config .serving w) : (joinListeners env idx listeners).Ends w fun o w' =>
      (o = .ok () ∧ At env cli config .serving w') ∨
        ∃ message, o = .err (.listenerTask message) ∧ Told env cli config o w' := by
  induction listeners generalizing idx with
  | nil => exact Or.inl ⟨rfl, hw⟩
  | cons listener rest ih =>
    unfold joinListeners
    cases env.joinError idx with
    | none => exact ih (idx + 1)
    | some message => exact Or.inr ⟨message, rfl, .serving, hw, rfl⟩

/-- From the signal on. -/
theorem shutdown_told (c : Config) (hw : At env cli config .serving w) :
    (shutdown env c).Ends w (Told env cli config) := by
  unfold shutdown
  refine Prog.ends_bind_ok ⟨trace_ok _ _ w, trace_at rfl _ _ w hw⟩ fun w₁ hw₁ => ?_
  refine Prog.ends_bind.2 ((joinListeners_told 0 c.listeners hw₁).mono ?_)
  rintro o w₂ (⟨rfl, hw₂⟩ | ⟨message, rfl, htold⟩)
  · have hdrain : Prog.Keeps (At env cli config .serving) (drain env c) :=
      drain_keeps (trace_at rfl) c
    refine Prog.andThen_ok.2 (Prog.ends_bind_ok ⟨drain_ok c w₂, hdrain w₂ hw₂⟩ fun w₃ hw₃ => ?_)
    have hstopped : Stage.next env cli config .serving (.remove (pidFilePath env)) =
        some .stopped := by
      simp [Stage.next]
    have hremove : (removePidFile env).Ends w₃ fun o w' => o = .ok () ∧
        (At env cli config .serving w' ∨ At env cli config .stopped w') := by
      unfold Prog.Ends
      rw [removePidFile_eq]
      exact ⟨rfl, removed_at hw₃ hstopped⟩
    refine Prog.ends_bind_ok hremove fun w₄ hw₄ => ?_
    unfold Prog.Ends
    rw [trace_eq]
    rcases hw₄ with hw₄ | hw₄
    · exact ⟨.serving, logged_at rfl hw₄ _ _, Or.inl rfl⟩
    · exact ⟨.stopped, logged_at rfl hw₄ _ _, Or.inr rfl⟩
  · exact htold

/-- From the listeners on. -/
theorem serving_told {c : Config} (hc : config = some c) (hv : c.validate env.http = .ok ())
    (hw : At env cli config (.listening 0) w) : (serving env c).Ends w (Told env cli config) := by
  have hup : ∀ l ∈ c.listeners, ∃ up, parseUpstream env.http l.upstream = .ok up :=
    fun l hl => ((validate_ok.1 hv).2 l hl).2
  unfold serving
  refine Prog.ends_bind.2 ((spawnListeners_at hc hup _ 0 rfl (Nat.zero_le _) hw).mono ?_)
  rintro o w₁ (⟨rfl, hw₁⟩ | ⟨addr, source, rfl, htold⟩)
  · have hserve : (waitForShutdownSignal env).Ends w₁ fun o w' =>
        o = .ok () ∧ At env cli config .serving w' :=
      ⟨rfl, at_add hw₁ (if_pos (by rw [hc]; rfl))⟩
    exact Prog.andThen_ok.2 (Prog.ends_bind_ok hserve fun w₂ hw₂ => shutdown_told c hw₂)
  · exact htold

/-! ## Whole starts -/

theorem parseUpstream_error {H : HttpCrate} {raw : Str} {err : AppError}
    (h : parseUpstream H raw = .error err) : ∃ message, err = .configValidation message := by
  unfold parseUpstream at h
  split at h
  · exact ⟨_, (Except.error.inj h).symm⟩
  · split at h
    · exact ⟨_, (Except.error.inj h).symm⟩
    · split at h
      · exact ⟨_, (Except.error.inj h).symm⟩
      · cases h

theorem validateFrom_message {H : HttpCrate} {err : AppError} (listeners : List ListenerConfig)
    (idx : ℕ) (h : Retrotls.validateFrom H idx listeners = .error err) :
    ∃ message, err = .configValidation message := by
  induction listeners generalizing idx with
  | nil => cases h
  | cons l rest ih =>
    unfold Retrotls.validateFrom at h
    split at h
    · exact ⟨_, (Except.error.inj h).symm⟩
    · split at h
      · rename_i hl
        exact parseUpstream_error (Except.error.inj h ▸ hl)
      · exact ih (idx + 1) h

/-- What is wrong with a configuration is a validation error. -/
theorem validate_error {H : HttpCrate} {c : Config} {err : AppError}
    (h : c.validate H = .error err) : ∃ message, err = .configValidation message := by
  unfold Config.validate at h
  split at h
  · exact ⟨_, (Except.error.inj h).symm⟩
  · exact validateFrom_message _ _ h

/-- The default configuration is written, or a directory or file cannot be. -/
theorem createDefaultConfig_at (hw : At env cli config .owner w) :
    (createDefaultConfig env (configPath env cli)).Ends w fun o w' =>
      (o = .ok () ∧ At env cli config .ended w') ∨
        ∃ message, o = .err (.configValidation message) ∧
          (At env cli config .owner w' ∨ At env cli config .configCut w') := by
  have hpid : ¬ (configPath env cli = pidFilePath env ∧
      defaultConfigContent = Retrotls.writePidFile env.pid ∧ Stage.owner.isEarly = true) :=
    fun h => absurd h.2.2 (by decide)
  have hwrite : Stage.next env cli config .owner (.write (configPath env cli) defaultConfigContent) =
      some .ended := (if_neg hpid).trans (if_pos ⟨rfl, rfl, rfl⟩)
  have hcut : ∀ count, Stage.next env cli config .owner
      (.writePart (configPath env cli) (defaultConfigContent.take count)) = some .configCut := by
    intro count
    refine (if_neg fun h => ?_).trans (if_pos ⟨rfl, take_isPrefixOf _ _, rfl⟩)
    exact absurd h.2.2 (by decide)
  unfold createDefaultConfig
  refine Prog.ends_bind.2 (Prog.ends_mapErr.2 ((createParent_at (Or.inr rfl) hw _).mono ?_))
  rintro o w₁ ⟨hexit, hw₁⟩
  cases o with
  | ok u =>
    refine Prog.andThen_ok.2 (Prog.ends_mapErr.2 ((write_at hw₁ hwrite hcut).mono ?_))
    rintro o w₂ (⟨rfl, hw₂⟩ | ⟨⟨e, rfl⟩, hw₂⟩)
    · exact Or.inl ⟨rfl, hw₂⟩
    · exact Or.inr ⟨_, rfl, hw₂⟩
  | err e => exact Or.inr ⟨_, rfl, Or.inl hw₁⟩
  | exit n => exact absurd rfl (hexit n)

/-- How `load_config` ends. -/
inductive LoadTold (env : Env) (cli : Cli) (config : Option Config) :
    Outcome AppError Config → World → Prop
  | found {c : Config} {w : World} (hw : At env cli config .owner w)
      (hc : c.validate env.http = .ok () → config = some c) : LoadTold env cli config (.ok c) w
  | failed {err : AppError} {w : World} (h : Told env cli config (.err err) w) :
      LoadTold env cli config (.err err) w
  | created {w : World} (hw : At env cli config .ended w) : LoadTold env cli config (.exit 0) w

theorem loadConfig_told (hc : config = configIn env (w.files (configPath env cli)))
    (hw : At env cli config .owner w) :
    (loadConfig env (configPath env cli)).Ends w (LoadTold env cli config) := by
  unfold Prog.Ends
  rw [loadConfig_eq]
  cases hfile : w.files (configPath env cli) with
  | absent =>
    show Prog.Ends _ w (LoadTold env cli config)
    refine Prog.ends_bind.2 ((createDefaultConfig_at hw).mono ?_)
    rintro o w' (⟨rfl, hw'⟩ | ⟨message, rfl, hw'⟩)
    · exact .created hw'
    · rcases hw' with hw' | hw'
      · exact .failed ⟨.owner, hw', Or.inl rfl⟩
      · exact .failed ⟨.configCut, hw', Or.inr rfl⟩
  | unreadable source => exact .failed ⟨.owner, hw, rfl⟩
  | text content =>
    cases hparse : env.parseYaml content with
    | error source =>
      simp only [hparse]
      exact .failed ⟨.owner, hw, rfl⟩
    | ok c =>
      simp only [hparse]
      refine .found hw fun hv => ?_
      rw [hc, hfile, configIn, hparse]
      exact if_pos hv

/-- From `load_config` on. -/
theorem load_told (hc : config = configIn env (w.files (configPath env cli)))
    (hw : At env cli config .owner w) : (do
      let c ← loadConfig env (configPath env cli)
      Prog.ofExcept (c.validate env.http)
      initLogging env ((cli.logLevel.or c.logLevel).getD "info".toList)
      trace env .info "RetroTLS v1.4.0 starting...".toList
      serving env c : Prog World AppError Unit).Ends w (Told env cli config) := by
  refine Prog.ends_bind.2 ((loadConfig_told hc hw).mono ?_)
  rintro o w₁ hload
  cases hload with
  | failed h => exact h
  | created hw₁ => exact ⟨.ended, hw₁, rfl, rfl⟩
  | found hw₁ hsome =>
    rename_i c
    refine Prog.andThen_ok.2 ?_
    cases hv : c.validate env.http with
    | error err =>
      obtain ⟨message, rfl⟩ := validate_error hv
      exact ⟨.owner, hw₁, Or.inl rfl⟩
    | ok u =>
      have hvalid := hsome hv
      rw [Prog.ofExcept_ok_bind]
      refine Prog.ends_bind_ok (initLogging_at hvalid hw₁) fun w₂ hw₂ => ?_
      refine Prog.ends_bind_ok ⟨trace_ok _ _ w₂, trace_at rfl _ _ w₂ hw₂⟩ fun w₃ hw₃ => ?_
      exact serving_told hvalid hv hw₃

/-- A start in the foreground, past the check. -/
theorem serve_told {files : Path → Entry} (hfresh : Fresh env ⟨files, []⟩ w) (hs : s.isEarly = true)
    (hw : At env cli (configured env cli files) s w) :
    (serve env cli (configPath env cli)).Ends w (Told env cli (configured env cli files)) := by
  unfold serve
  refine Prog.ends_bind.2 (Prog.ends_mapErr.2 (((writePidFile_ends hfresh).and
    (writePidFile_at hs hw)).mono ?_))
  rintro o w₁ ⟨hends, ⟨rfl, hw₁⟩ | ⟨⟨e, rfl⟩, hw₁⟩⟩
  · rcases hends with ⟨-, -, hfiles⟩ | ⟨ho, -⟩
    · refine Prog.andThen_ok.2 (load_told ?_ hw₁)
      rw [hfiles]
      rfl
    · exact absurd rfl ho
  · rcases hw₁ with hw₁ | hw₁
    · exact ⟨s, hw₁, Or.inl hs⟩
    · exact ⟨.pidCut, hw₁, Or.inr rfl⟩

/-- A start in the background, past the check. -/
theorem daemonize_told (hs : s.isEarly = true) (hw : At env cli config s w) :
    ((daemonize env).mapErr AppError.io).Ends w (Told env cli config) := by
  refine Prog.ends_mapErr.2 ?_
  unfold daemonize
  cases env.currentExe with
  | some source => exact ⟨s, hw, Or.inl hs⟩
  | none =>
    cases env.spawn with
    | some source => exact ⟨s, hw, Or.inl hs⟩
    | none => exact ⟨.ended, at_add hw (if_pos ⟨rfl, hs⟩), rfl, rfl⟩

/-- **Every start goes through the stages**, in the foreground or the background and whatever
fails, and how it ends tells how far it came. -/
theorem start_stages (hprog : programOf cli = some .start) (env : Env) (files : Path → Entry) :
    ∃ s, exec (Stage.next env cli (configured env cli files)) .begun (effects env cli files) = some s ∧
      s.Tells (configured env cli files) (outcome env cli files) := by
  obtain ⟨h, -⟩ | ⟨-, -, foreground, hrun⟩ := @programOf_cases env cli _ hprog
  · cases h
  have hfresh : Prog.Keeps (Fresh env ⟨files, []⟩) (checkRunning env) := checkRunning_fresh
  have hstart : (start env cli foreground (configPath env cli)).Ends ⟨files, []⟩
      (Told env cli (configured env cli files)) := by
    have hinit : Fresh env ⟨files, []⟩ ⟨files, []⟩ := ⟨by simp [PidWritten], by simp, fun _ _ => rfl⟩
    unfold start
    refine Prog.ends_bind.2 (((hfresh.ends hinit).and (checkRunning_at env cli (configured env cli files) files)).mono ?_)
    rintro o w ⟨hw, ⟨rfl, s, hs, hat⟩ | ⟨⟨pid, rfl⟩, hat⟩⟩
    · refine Prog.andThen_ok.2 ?_
      cases foreground with
      | true => exact serve_told hw hs hat
      | false => exact daemonize_told hs hat
    · exact ⟨.probed, hat, rfl⟩
  unfold effects outcome
  rw [hrun]
  exact hstart

/-- The second of two binds is refused. -/
def refusedEnv : Env :=
  { calm with
    parseYaml := fun _ => .ok (twoListeners (.v4 0x7f000001 8080) (.v4 0x7f000001 8081))
    bind := fun idx => if idx = 1 then some ⟨.other, "Permission denied".toList⟩ else none }

def someFiles (_ : Path) : Entry := .text []

theorem start_stages_refused :
    outcome refusedEnv startCli someFiles =
      .err (.bindFailed (.v4 0x7f000001 8081) ⟨.other, "Permission denied".toList⟩) ∧
    ∃ s, exec (Stage.next refusedEnv startCli (configured refusedEnv startCli someFiles)) .begun
        (effects refusedEnv startCli someFiles) = some s ∧
      s.Tells (configured refusedEnv startCli someFiles) (outcome refusedEnv startCli someFiles) :=
  ⟨by decide +kernel, start_stages rfl refusedEnv someFiles⟩

/-! ## What the stages say -/

/-- The address that an action binds. -/
def boundBy : Effect → Option SocketAddr
  | .listen addr => some addr
  | _ => none

/-- The addresses of a configuration, in order. -/
def addresses (config : Option Config) : List SocketAddr :=
  (config.map fun c => c.listeners.map (·.listen)).getD []

/-- **What an action can be**, at its stage. -/
inductive Stage.Step (env : Env) (config : Option Config) : Stage → Effect → Stage → Prop
  | early {s s' : Stage} {e : Effect} (he : boundBy e = none) (hs : s.isEarly = true)
      (hs' : s'.isEarly = true) : Step env config s e s'
  | claim {s : Stage} (hs : s.isEarly = true) :
      Step env config s (.write (pidFilePath env) (Retrotls.writePidFile env.pid)) .owner
  | prepare {e : Effect} (he : boundBy e = none) : Step env config .owner e .owner
  | finish {s s' : Stage} {e : Effect} (he : boundBy e = none) (hs : s.isEarly = true ∨ s = .owner)
      (hs' : s'.isOver = true) : Step env config s e s'
  | log {level : Str} : Step env config .owner (.logging level) (.listening 0)
  | line {s : Stage} {more : Str} (hs : s.logs = true) :
      Step env config s (.append (logFilePath env) more) s
  | bind {count : ℕ} {addr : SocketAddr} (haddr : addressAt config count = some addr) :
      Step env config (.listening count) (.listen addr) (.listening (count + 1))
  | serve {c : Config} (hc : config = some c) :
      Step env config (.listening c.listeners.length) .serve .serving
  | stop : Step env config .serving (.remove (pidFilePath env)) .stopped

theorem step_of_next {e : Effect} (h : Stage.next env cli config s e = some s') :
    Stage.Step env config s e s' := by
  cases e with
  | listen addr =>
    cases s with
    | listening count =>
      obtain ⟨haddr, rfl⟩ := of_guard h
      exact .bind haddr
    | _ => cases h
  | serve =>
    obtain ⟨hs, rfl⟩ := of_guard h
    obtain ⟨c, hc, rfl⟩ := Option.map_eq_some_iff.1 hs
    exact .serve hc
  | kill target signal =>
    obtain ⟨⟨rfl, -⟩, rfl⟩ := of_guard h
    exact .early rfl rfl rfl
  | remove path =>
    rcases of_guards h with ⟨⟨-, rfl⟩, rfl⟩ | ⟨⟨rfl, rfl⟩, rfl⟩
    · exact .early rfl rfl rfl
    · exact .stop
  | createDirAll path =>
    obtain ⟨hs | rfl, rfl⟩ := of_guard h
    · exact .early rfl hs hs
    · exact .prepare rfl
  | write path content =>
    rcases of_guards h with ⟨⟨rfl, rfl, hs⟩, rfl⟩ | ⟨⟨-, -, rfl⟩, rfl⟩
    · exact .claim hs
    · exact .finish rfl (Or.inr rfl) rfl
  | writePart path written =>
    rcases of_guards h with ⟨⟨-, -, hs⟩, rfl⟩ | ⟨⟨-, -, rfl⟩, rfl⟩
    · exact .finish rfl (Or.inl hs) rfl
    · exact .finish rfl (Or.inr rfl) rfl
  | spawn args =>
    obtain ⟨⟨-, hs⟩, rfl⟩ := of_guard h
    exact .finish rfl (Or.inl hs) rfl
  | openAppend path =>
    obtain ⟨⟨-, rfl⟩, rfl⟩ := of_guard h
    exact .prepare rfl
  | append path more =>
    obtain ⟨⟨rfl, hs⟩, rfl⟩ := of_guard h
    exact .line hs
  | logging level =>
    obtain ⟨⟨rfl, -⟩, rfl⟩ := of_guard h
    exact .log
  | print line => cases h

/-- What is behind a start at a stage: the binds so far, and the write of its own PID. -/
structure Behind (env : Env) (config : Option Config) (log : List Effect) (s : Stage) : Prop where
  bound : ∃ count, log.filterMap boundBy = (addresses config).take count
  none : s.isEarly = true ∨ s = .owner → log.filterMap boundBy = []
  listening : ∀ count, s = .listening count → log.filterMap boundBy = (addresses config).take count ∧
    count ≤ (addresses config).length
  serving : s = .serving ∨ s = .stopped → log.filterMap boundBy = addresses config
  written : s.isEarly = false → s.isOver = false →
    .write (pidFilePath env) (Retrotls.writePidFile env.pid) ∈ log

theorem addresses_getElem {count : ℕ} {addr : SocketAddr} (h : addressAt config count = some addr) :
    (addresses config)[count]? = some addr := by
  obtain ⟨c, rfl, hc⟩ := Option.bind_eq_some_iff.1 h
  rw [addresses, Option.map_some, Option.getD_some, List.getElem?_map, hc]

/-- Nothing is bound, and nothing has to be written: not yet, or not any more. -/
theorem behind_unbound {log : List Effect} (hnil : log.filterMap boundBy = [])
    (hs : s.isEarly = true ∨ s.isOver = true) : Behind env config log s where
  bound := ⟨0, hnil⟩
  none := fun _ => hnil
  listening := by
    rintro count rfl
    rcases hs with hs | hs <;> cases hs
  serving := by
    rintro (rfl | rfl) <;> rcases hs with hs | hs <;> cases hs
  written := by
    intro hearly hover
    rw [hearly, hover] at hs
    rcases hs with hs | hs <;> cases hs

theorem filterMap_quiet {log : List Effect} {e : Effect} (he : boundBy e = .none) :
    (log ++ [e]).filterMap boundBy = log.filterMap boundBy := by simp [he]

/-- An action that binds nothing and stays at the stage. -/
theorem Behind.quiet {log : List Effect} {e : Effect} (hb : Behind env config log s)
    (he : boundBy e = .none) : Behind env config (log ++ [e]) s := by
  have hquiet := @filterMap_quiet log e he
  refine ⟨?_, ?_, ?_, ?_, fun h1 h2 => List.mem_append_left _ (hb.written h1 h2)⟩
  · rw [hquiet]
    exact hb.bound
  · rw [hquiet]
    exact hb.none
  · rw [hquiet]
    exact hb.listening
  · rw [hquiet]
    exact hb.serving

/-- One action. -/
theorem behind_step {log : List Effect} {e : Effect} (hb : Behind env config log s)
    (h : Stage.Step env config s e s') : Behind env config (log ++ [e]) s' := by
  have hquiet : boundBy e = .none → (log ++ [e]).filterMap boundBy = log.filterMap boundBy :=
    filterMap_quiet
  cases h with
  | early he hs hs' => exact behind_unbound ((hquiet he).trans (hb.none (Or.inl hs))) (Or.inl hs')
  | finish he hs hs' => exact behind_unbound ((hquiet he).trans (hb.none hs)) (Or.inr hs')
  | prepare he => exact hb.quiet he
  | line _ => exact hb.quiet rfl
  | claim hs =>
    have hnil := (hquiet rfl).trans (hb.none (Or.inl hs))
    exact {
      bound := ⟨0, hnil⟩
      none := fun _ => hnil
      listening := by simp
      serving := by simp
      written := fun _ _ => List.mem_append_right _ (List.mem_singleton_self _) }
  | log =>
    have hnil := (hquiet rfl).trans (hb.none (Or.inr rfl))
    exact {
      bound := ⟨0, hnil⟩
      none := fun _ => hnil
      listening := fun count hc => Stage.listening.inj hc ▸ ⟨hnil, Nat.zero_le _⟩
      serving := by simp
      written := fun _ _ => List.mem_append_left _ (hb.written rfl rfl) }
  | @bind count addr haddr =>
    -- the next listener
    obtain ⟨hlog, -⟩ := hb.listening count rfl
    have hget := addresses_getElem haddr
    obtain ⟨hlt, -⟩ := List.getElem?_eq_some_iff.1 hget
    have hbound : (log ++ [Effect.listen addr]).filterMap boundBy =
        (addresses config).take (count + 1) := by
      rw [List.filterMap_append, hlog, List.take_add_one, hget]
      rfl
    exact {
      bound := ⟨_, hbound⟩
      none := by simp [Stage.isEarly]
      listening := fun n hn => Stage.listening.inj hn ▸ ⟨hbound, hlt⟩
      serving := by simp
      written := fun _ _ => List.mem_append_left _ (hb.written rfl rfl) }
  | @serve c hc =>
    -- all listeners are bound
    obtain ⟨hlog, -⟩ := hb.listening _ rfl
    have hall : (log ++ [Effect.serve]).filterMap boundBy = addresses config := by
      rw [hquiet rfl, hlog, hc]
      simp [addresses]
    exact {
      bound := ⟨_, (hquiet rfl).trans hlog⟩
      none := by simp [Stage.isEarly]
      listening := by simp
      serving := fun _ => hall
      written := fun _ _ => List.mem_append_left _ (hb.written rfl rfl) }
  | stop =>
    have hall := (hquiet rfl).trans (hb.serving (Or.inl rfl))
    exact {
      bound := ⟨_, hall.trans (List.take_length).symm⟩
      none := by simp [Stage.isEarly]
      listening := by simp
      serving := fun _ => hall
      written := fun _ _ => List.mem_append_left _ (hb.written rfl rfl) }

theorem behind_exec {log : List Effect} (h : exec (Stage.next env cli config) .begun log = some s) :
    Behind env config log s :=
  exec_hist (P := Behind env config) (behind_unbound rfl (Or.inl rfl))
    (fun _ _ _ _ _ hb hst => behind_step hb (step_of_next hst)) h

/-- The action is a line of the log. -/
def isLine : Effect → Bool
  | .append _ _ => true
  | _ => false

/-- **The actions `done`, with lines of the log in between**: these go to the log file. -/
structure WithLines (env : Env) (done actions : List Effect) : Prop where
  lines : ∀ path more, .append path more ∈ actions → path = logFilePath env
  done : actions.filter (fun e => !isLine e) = done

theorem withLines_nil : WithLines env [] [] := ⟨fun _ _ hm => (by cases hm), rfl⟩

theorem WithLines.line {done actions : List Effect} (h : WithLines env done actions) (more : Str) :
    WithLines env done (.append (logFilePath env) more :: actions) := by
  refine ⟨fun path text hm => ?_, h.done⟩
  rcases List.mem_cons.1 hm with hm | hm
  · exact (Effect.append.inj hm).1
  · exact h.lines path text hm

theorem WithLines.action {done actions : List Effect} {e : Effect} (h : WithLines env done actions)
    (he : isLine e = false) : WithLines env (e :: done) (e :: actions) := by
  refine ⟨fun path more hm => ?_, ?_⟩
  · rcases List.mem_cons.1 hm with rfl | hm
    · cases he
    · exact h.lines path more hm
  · rw [List.filter_cons_of_pos (by simp [he]), h.done]

/-- After the removal there are lines only. -/
theorem stopped_withLines {actions : List Effect}
    (h : exec (Stage.next env cli config) .stopped actions = some s) : WithLines env [] actions := by
  induction actions with
  | nil => exact withLines_nil
  | cons e actions ih =>
    obtain ⟨s₁, h₁, hrest⟩ := exec_cons.1 h
    cases step_of_next h₁ with
    | line _ => exact (ih hrest).line _
    | early _ hs _ => cases hs
    | claim hs => cases hs
    | finish _ hs _ => rcases hs with hs | hs <;> cases hs

/-- From the wait on, the PID file is removed once, or not at all. -/
theorem serving_withLines {actions : List Effect}
    (h : exec (Stage.next env cli config) .serving actions = some s) :
    WithLines env [] actions ∨ WithLines env [.remove (pidFilePath env)] actions := by
  induction actions with
  | nil => exact Or.inl withLines_nil
  | cons e actions ih =>
    obtain ⟨s₁, h₁, hrest⟩ := exec_cons.1 h
    cases step_of_next h₁ with
    | line _ => exact (ih hrest).imp (fun hl => hl.line _) fun hl => hl.line _
    | stop => exact Or.inr ((stopped_withLines hrest).action rfl)
    | early _ hs _ => cases hs
    | claim hs => cases hs
    | finish _ hs _ => rcases hs with hs | hs <;> cases hs

/-- **The order of a start's actions**, in the foreground or the background and whatever fails.
The addresses that are bound are the first ones of the configuration, in order; before any is,
the own PID is written. The signal is waited for when all are bound, and then, but for the
lines of the log, only the PID file is removed. -/
theorem start_order (hprog : programOf cli = some .start) (env : Env) (files : Path → Entry) :
    (∃ count, (effects env cli files).filterMap boundBy =
      (addresses (configured env cli files)).take count) ∧
    (∀ log rest addr, effects env cli files = log ++ .listen addr :: rest →
      .write (pidFilePath env) (Retrotls.writePidFile env.pid) ∈ log) ∧
    ∀ log rest, effects env cli files = log ++ .serve :: rest →
      log.filterMap boundBy = addresses (configured env cli files) ∧
        (WithLines env [] rest ∨ WithLines env [.remove (pidFilePath env)] rest) := by
  obtain ⟨s, hexec, -⟩ := start_stages hprog env files
  refine ⟨(behind_exec hexec).bound, fun log rest addr heq => ?_, fun log rest heq => ?_⟩
  · rw [heq] at hexec
    obtain ⟨s₁, h₁, h₂⟩ := exec_append.1 hexec
    obtain ⟨s₂, hlisten, -⟩ := exec_cons.1 h₂
    cases step_of_next hlisten with
    | bind _ => exact (behind_exec h₁).written rfl rfl
    | early he _ _ => cases he
    | prepare he => cases he
    | finish he _ _ => cases he
  · rw [heq] at hexec
    obtain ⟨s₁, h₁, h₂⟩ := exec_append.1 hexec
    obtain ⟨s₂, hserve, hrest⟩ := exec_cons.1 h₂
    obtain ⟨hs, rfl⟩ := of_guard hserve
    have hserving := (behind_exec (exec_concat.2 ⟨s₁, h₁, hserve⟩)).serving (Or.inl rfl)
    rw [List.filterMap_append] at hserving
    exact ⟨(List.append_nil _).symm.trans hserving, serving_withLines hrest⟩

/-- A start that serves both listeners until it is signalled. -/
def servedEnv : Env := { refusedEnv with bind := fun _ => none }

theorem start_order_served :
    ((effects servedEnv startCli someFiles).filterMap boundBy =
      [.v4 0x7f000001 8080, .v4 0x7f000001 8081] ∧
        .serve ∈ effects servedEnv startCli someFiles) ∧
    (∃ count, (effects servedEnv startCli someFiles).filterMap boundBy =
      (addresses (configured servedEnv startCli someFiles)).take count) ∧
    (∀ log rest addr, effects servedEnv startCli someFiles = log ++ .listen addr :: rest →
      .write (pidFilePath servedEnv) (Retrotls.writePidFile 4242) ∈ log) ∧
    ∀ log rest, effects servedEnv startCli someFiles = log ++ .serve :: rest →
      log.filterMap boundBy = addresses (configured servedEnv startCli someFiles) ∧
        (WithLines servedEnv [] rest ∨ WithLines servedEnv [.remove (pidFilePath servedEnv)] rest) :=
  ⟨⟨by decide +kernel, by decide +kernel⟩, start_order rfl servedEnv someFiles⟩

end Retrotls.Run
