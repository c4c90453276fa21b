import Retrotls.Spec.Run
import Retrotls.Proof.Upstream
import Retrotls.Proof.Crates

/-!
# What a failed start leaves behind

* `loadConfig_eq`, `spawnListeners_ends`, `writePidFile_ends`: what the parts of a start do.
* `failed_start_iff`: **a start that fails after its write leaves its PID in the file**,
  unless it had served and another process had changed the file.
-/

namespace Retrotls

/-- What can be read in a file. -/
def Entry.content : Entry → Option Str
  | .text content => some content
  | _ => none

/-- The state after an effect. -/
def World.add (w : World) (e : Effect) : World := { w with log := w.log ++ [e] }

/-- The state with another file. -/
def World.put (w : World) (path : Path) (entry : Entry) : World :=
  { w with files := fun p => if p = path then entry else w.files p }

namespace Run

variable {env : Env} {w : World} {path : Path}

/-- The PID file names this process. -/
def Named (env : Env) (w : World) : Prop :=
  Retrotls.readPidFile (w.files (pidFilePath env)).content = some env.pid

/-- The process has written its PID file. -/
def PidWritten (env : Env) (w : World) : Prop :=
  .write (pidFilePath env) (Retrotls.writePidFile env.pid) ∈ w.log

instance (env : Env) (w : World) : Decidable (Named env w) := inferInstanceAs (Decidable (_ = _))

instance (env : Env) (w : World) : Decidable (PidWritten env w) :=
  inferInstanceAs (Decidable (_ ∈ _))

/-- **The start has failed**: it ends before it serves, or with an error. -/
def Failed (o : Outcome AppError Unit) (w : World) : Prop := .serve ∉ w.log ∨ ∃ err, o = .err err

/-- **The start serves**: the configuration is in the file, it is parsed and valid, and
every bind succeeds. -/
def Serveable (env : Env) (entry : Entry) : Prop :=
  ∃ content config, entry = .text content ∧ env.parseYaml content = .ok config ∧
    config.validate env.http = .ok () ∧ ∀ idx < config.listeners.length, env.bind idx = none

/-- What others leave of the PID file does not name this process. -/
def Replaced (env : Env) : Prop :=
  Retrotls.readPidFile (env.others (.text (Retrotls.writePidFile env.pid))).content ≠ some env.pid

/-- What a start finds at a path after its write. -/
def seen (env : Env) (w : World) (path : Path) : Entry :=
  if path = pidFilePath env then .text (Retrotls.writePidFile env.pid) else w.files path

/-- The start has not written yet, and has touched no other file than the PID file. -/
structure Fresh (env : Env) (w₀ w : World) : Prop where
  written : ¬ PidWritten env w
  serve : .serve ∉ w.log
  files : ∀ path, path ≠ pidFilePath env → w.files path = w₀.files path

/-- The PID file is as it was written, and the signal is not waited for yet. -/
structure Written (env : Env) (w : World) : Prop where
  pidFile : w.files (pidFilePath env) = .text (Retrotls.writePidFile env.pid)
  serve : .serve ∉ w.log

/-- The signal has been handled, and the PID file is as others have left it. -/
structure Served (env : Env) (w : World) : Prop where
  pidFile : w.files (pidFilePath env) = env.others (.text (Retrotls.writePidFile env.pid))
  serve : .serve ∈ w.log

/-! ## Single steps -/

theorem not_mem_emit {e e' : Effect} (h : e ∉ w.log) (he : e' ≠ e) : e ∉ w.log ++ [e'] := by
  intro hm
  rcases List.mem_append.1 hm with hm | hm
  · exact h hm
  · exact he (List.mem_singleton.1 hm).symm

theorem emit_written {ε : Type} {e : Effect} (he : e ≠ .serve) :
    Prog.Keeps (Written env) (emit e : Prog World ε Unit) :=
  fun _ hw => ⟨hw.pidFile, not_mem_emit hw.serve he⟩

theorem emit_fresh {ε : Type} {w₀ : World} {e : Effect} (h1 : e ≠ .serve)
    (h2 : e ≠ .write (pidFilePath env) (Retrotls.writePidFile env.pid)) :
    Prog.Keeps (Fresh env w₀) (emit e : Prog World ε Unit) :=
  fun _ hw => ⟨not_mem_emit hw.written h2, not_mem_emit hw.serve h1, hw.files⟩

theorem setEntry_written {ε : Type} (hp : path ≠ pidFilePath env) (entry : Entry) :
    Prog.Keeps (Written env) (setEntry path entry : Prog World ε Unit) := by
  intro w hw
  refine ⟨?_, hw.serve⟩
  show (if pidFilePath env = path then entry else w.files (pidFilePath env)) = _
  rw [if_neg (Ne.symm hp)]
  exact hw.pidFile

theorem setEntry_fresh {ε : Type} {w₀ : World} (entry : Entry) :
    Prog.Keeps (Fresh env w₀) (setEntry (pidFilePath env) entry : Prog World ε Unit) := by
  intro w hw
  refine ⟨hw.written, hw.serve, fun path hp => ?_⟩
  show (if path = pidFilePath env then entry else w.files path) = _
  rw [if_neg hp]
  exact hw.files path hp

/-- Creating a directory only leaves a record of it. -/
theorem createParent_keeps {I : World → Prop}
    (hI : ∀ path, Prog.Keeps I (emit (.createDirAll path) : Prog World IoError Unit)) (path : Path) :
    Prog.Keeps I (createParent env path) := by
  unfold createParent createDirAll
  split
  · split
    · exact Prog.keeps_throw _
    · exact hI _
  · exact Prog.keeps_pure _

theorem createParent_written (path : Path) : Prog.Keeps (Written env) (createParent env path) :=
  createParent_keeps (fun _ => emit_written (by simp)) path

/-- **What a write can end with**: the file is there as a whole, or as far as it was written, or
it is not created. -/
inductive Wrote (env : Env) (path : Path) (content : Str) (w : World) :
    Outcome IoError Unit → World → Prop
  | whole (hcreate : env.create path = none) (hwrite : env.writeAll path = none) :
      Wrote env path content w (.ok ()) ((w.put path (.text content)).add (.write path content))
  | part {count : ℕ} {source : IoError} (hcreate : env.create path = none)
      (hwrite : env.writeAll path = some (count, source)) : Wrote env path content w (.err source)
        ((w.put path (.text (content.take count))).add (.writePart path (content.take count)))
  | kept {source : IoError} (hcreate : env.create path = some source) :
      Wrote env path content w (.err source) w

theorem write_ends (env : Env) (path : Path) (content : Str) (w : World) :
    (write env path content).Ends w (Wrote env path content w) := by
  unfold Prog.Ends write
  cases hcreate : env.create path with
  | some source => exact .kept hcreate
  | none =>
    cases hwrite : env.writeAll path with
    | none => exact .whole hcreate hwrite
    | some r => exact .part hcreate hwrite

/-- A write, whole or not, leaves the file and a record of it. -/
theorem write_keeps {I : World → Prop} {content : Str}
    (hset : Prog.Keeps I (setEntry path (.text content) : Prog World IoError Unit))
    (hcut : ∀ count, Prog.Keeps I
      (setEntry path (.text (content.take count)) : Prog World IoError Unit))
    (hpart : ∀ count, Prog.Keeps I
      (emit (.writePart path (content.take count)) : Prog World IoError Unit))
    (hwrite : Prog.Keeps I (emit (.write path content) : Prog World IoError Unit)) :
    Prog.Keeps I (write env path content) := by
  intro w hw
  have hends := write_ends env path content w
  unfold Prog.Ends at hends
  generalize write env path content w = r at hends
  obtain ⟨o, w'⟩ := r
  cases hends with
  | whole _ _ => exact hwrite _ (hset w hw)
  | part _ _ => exact hpart _ _ (hcut _ w hw)
  | kept _ => exact hw

theorem write_written (hp : path ≠ pidFilePath env) (content : Str) :
    Prog.Keeps (Written env) (write env path content) :=
  write_keeps (setEntry_written hp _) (fun _ => setEntry_written hp _)
    (fun _ => emit_written (by simp)) (emit_written (by simp))

theorem openAppend_written (hp : path ≠ pidFilePath env) :
    Prog.Keeps (Written env) (openAppend env path) := by
  unfold openAppend
  split
  · exact Prog.keeps_throw _
  · exact Prog.keeps_bind Prog.keeps_get fun _ =>
      Prog.keeps_bind (setEntry_written hp _) fun _ => emit_written (by simp)

theorem removePidFile_keeps {I : World → Prop}
    (hset : Prog.Keeps I (setEntry (pidFilePath env) .absent : Prog World IoError Unit))
    (hemit : Prog.Keeps I (emit (.remove (pidFilePath env)) : Prog World IoError Unit)) :
    Prog.Keeps I (removePidFile env) := by
  unfold removePidFile removeFile
  refine Prog.keeps_ignore (Prog.keeps_bind Prog.keeps_get fun w' => ?_)
  split
  · exact Prog.keeps_throw _
  · split
    · exact Prog.keeps_throw _
    · exact Prog.keeps_bind hset fun _ => hemit

/-! ## The log -/

/-- A line leaves more in the log file, and a record of it. -/
theorem trace_keeps {I : World → Prop}
    (hset : ∀ entry, Prog.Keeps I (setEntry (logFilePath env) entry : Prog World AppError Unit))
    (hemit : ∀ more, Prog.Keeps I
      (emit (.append (logFilePath env) more) : Prog World AppError Unit)) (level : Level) (line : Str) :
    Prog.Keeps I (trace env level line) := by
  unfold trace
  refine Prog.keeps_bind Prog.keeps_get fun w => ?_
  dsimp only
  split
  · exact Prog.keeps_bind (hset _) fun _ => hemit _
  · exact Prog.keeps_pure _

/-- The state after a line. -/
def logged (env : Env) (level : Level) (line : Str) (w : World) : World :=
  let path := logFilePath env
  let more := env.traced (w.files path) level line
  if env.openAppend path = none ∧ more ≠ [] then
    ⟨fun p => if p = path then (w.files path).append more else w.files p, w.log ++ [.append path more]⟩
  else w

/-- Logging never fails. -/
theorem trace_eq (env : Env) (level : Level) (line : Str) (w : World) :
    trace env level line w = (.ok (), logged env level line w) := by
  unfold logged
  dsimp only
  split
  · rename_i h
    exact congrFun (if_pos h) w
  · rename_i h
    exact congrFun (if_neg h) w

theorem trace_ok (level : Level) (line : Str) (w : World) : (trace env level line w).1 = .ok () := by
  rw [trace_eq]

theorem drain_ok (config : Config) (w : World) : (drain env config w).1 = .ok () := by
  unfold drain
  split
  · exact trace_ok _ _ w
  · rfl

theorem drain_keeps {I : World → Prop} (hI : ∀ level line, Prog.Keeps I (trace env level line))
    (config : Config) : Prog.Keeps I (drain env config) := by
  unfold drain
  split
  · exact hI _ _
  · exact Prog.keeps_pure _

theorem logFilePath_ne (env : Env) : logFilePath env ≠ pidFilePath env := by
  intro h
  have hlen := congrArg List.length h
  simp [logFilePath, pidFilePath] at hlen

theorem trace_written (level : Level) (line : Str) :
    Prog.Keeps (Written env) (trace env level line) :=
  trace_keeps (fun _ => setEntry_written (logFilePath_ne env) _) (fun _ => emit_written (by simp))
    level line

/-! ## The configuration -/

theorem createDefaultConfig_written (hp : path ≠ pidFilePath env) :
    Prog.Keeps (Written env) (createDefaultConfig env path) := by
  unfold createDefaultConfig
  exact Prog.keeps_bind (Prog.keeps_mapErr _ (createParent_written _)) fun _ =>
    Prog.keeps_mapErr _ (write_written hp _)

/-- **`load_config`, by what it finds.** -/
theorem loadConfig_eq (env : Env) (path : Path) (w : World) : loadConfig env path w =
    match w.files path with
    | .absent => (do createDefaultConfig env path; Prog.exit 0 : Prog World AppError Config) w
    | .text content =>
      match env.parseYaml content with
      | .ok config => (.ok config, w)
      | .error source => (.err (.configParse path source), w)
    | .unreadable source => (.err (.configRead path ⟨.other, source⟩), w) := by
  cases h : w.files path with
  | absent =>
    simp only [loadConfig, readToString, bind, Prog.get, pure, h]
    rfl
  | text content =>
    simp only [loadConfig, readToString, bind, Prog.get, pure, h]
    cases env.parseYaml content <;> rfl
  | unreadable source =>
    simp only [loadConfig, readToString, bind, Prog.get, pure, h]
    rfl

/-- A configuration that is created is not returned. -/
theorem createDefaultConfig_exit (env : Env) (path : Path) (w : World) (config : Config) :
    ((do createDefaultConfig env path; Prog.exit 0 : Prog World AppError Config) w).1 ≠ .ok config := by
  show Prog.Ends _ w fun o _ => o ≠ .ok config
  refine Prog.ends_bind.2 ?_
  unfold Prog.Ends
  cases (createDefaultConfig env path w).1 <;> simp [Prog.andThen, Prog.Ends, Prog.exit]

/-- **What `load_config` returns** is in the file, and then it has done nothing else. The
PID file is there, so no file is created over it. -/
theorem loadConfig_ends (hw : Written env w) (path : Path) :
    (loadConfig env path).Ends w fun o w' => Written env w' ∧ ∀ config, o = .ok config ↔
      ∃ content, w.files path = .text content ∧ env.parseYaml content = .ok config := by
  unfold Prog.Ends
  rw [loadConfig_eq]
  cases h : w.files path with
  | absent =>
    -- the PID file is there, so it is not the one that is missing
    have hp : path ≠ pidFilePath env := by
      rintro rfl
      rw [hw.pidFile] at h
      cases h
    refine ⟨?_, fun config => ⟨fun ho => ?_, ?_⟩⟩
    · exact Prog.keeps_bind (createDefaultConfig_written hp) (fun _ => Prog.keeps_exit 0) w hw
    · exact absurd ho (createDefaultConfig_exit env path w config)
    · rintro ⟨content, hc, -⟩
      cases hc
  | text content =>
    dsimp only
    cases hy : env.parseYaml content with
    | ok config =>
      refine ⟨hw, fun config' => ⟨fun ho => ?_, ?_⟩⟩
      · cases ho
        exact ⟨content, rfl, hy⟩
      · rintro ⟨_, ⟨⟩, hc⟩
        rw [hy] at hc
        cases hc
        rfl
    | error source =>
      refine ⟨hw, fun config' => ⟨fun ho => (by cases ho), ?_⟩⟩
      rintro ⟨_, ⟨⟩, hc⟩
      rw [hy] at hc
      cases hc
  | unreadable source =>
    refine ⟨hw, fun config => ⟨fun ho => (by cases ho), ?_⟩⟩
    rintro ⟨content, hc, -⟩
    cases hc

/-! ## The startup loop -/

theorem createParent_noExit (path : Path) : Prog.NoExit (createParent env path) := by
  unfold createParent createDirAll
  split
  · split
    · exact Prog.noExit_throw _
    · exact Prog.noExit_modify _
  · exact Prog.noExit_pure _

theorem openAppend_noExit (path : Path) : Prog.NoExit (openAppend env path) := by
  unfold openAppend
  split
  · exact Prog.noExit_throw _
  · exact Prog.noExit_bind Prog.noExit_get fun _ =>
      Prog.noExit_bind (Prog.noExit_modify _) fun _ => Prog.noExit_modify _

/-- `init_logging` returns, with its file or without. -/
theorem initLogging_ends (hw : Written env w) (level : Str) :
    (initLogging env level).Ends w fun o w' => o = .ok () ∧ Written env w' := by
  unfold initLogging
  refine Prog.ends_bind_ok (Prog.ends_ignore (createParent_noExit _) (createParent_written _) hw) ?_
  intro w₁ hw₁
  refine Prog.ends_bind_ok
    (Prog.ends_ignore (openAppend_noExit _) (openAppend_written (logFilePath_ne env)) hw₁) ?_
  intro w₂ hw₂
  exact ⟨rfl, emit_written (ε := AppError) (by simp) w₂ hw₂⟩

/-- The startup loop only leaves a record of its listeners, and logs them. -/
theorem spawnListeners_keeps {I : World → Prop}
    (hI : ∀ addr, Prog.Keeps I (emit (.listen addr) : Prog World AppError Unit))
    (htrace : ∀ level line, Prog.Keeps I (trace env level line)) (idx : ℕ)
    (listeners : List ListenerConfig) : Prog.Keeps I (spawnListeners env idx listeners) := by
  induction listeners generalizing idx with
  | nil => exact Prog.keeps_pure _
  | cons listener rest ih =>
    unfold spawnListeners
    refine Prog.keeps_bind (Prog.keeps_ofExcept _) fun _ => ?_
    split
    · exact Prog.keeps_throw _
    · exact Prog.keeps_bind (hI _) fun _ => Prog.keeps_bind (htrace _ _) fun _ => ih (idx + 1)

theorem spawnListeners_written (idx : ℕ) (listeners : List ListenerConfig) :
    Prog.Keeps (Written env) (spawnListeners env idx listeners) :=
  spawnListeners_keeps (fun _ => emit_written (by simp)) trace_written idx listeners

/-- The startup loop has bound every listener, or has failed at the first that cannot be
bound. -/
def Bound (env : Env) (idx : ℕ) (listeners : List ListenerConfig) (o : Outcome AppError Unit) : Prop :=
  (o = .ok () ∧ ∀ i < listeners.length, env.bind (idx + i) = none) ∨
    ∃ i listener source, listeners[i]? = some listener ∧ env.bind (idx + i) = some source ∧
      o = .err (.bindFailed listener.listen source)

/-- The first listener is bound, and the loop goes on. -/
theorem Bound.cons {idx : ℕ} {listener : ListenerConfig} {rest : List ListenerConfig}
    {o : Outcome AppError Unit} (hb : env.bind idx = none) (h : Bound env (idx + 1) rest o) :
    Bound env idx (listener :: rest) o := by
  rcases h with ⟨ho, h⟩ | ⟨i, l, source, hl, hs, ho⟩
  · refine Or.inl ⟨ho, fun i hi => ?_⟩
    cases i with
    | zero => exact hb
    | succ i =>
      have hidx : idx + (i + 1) = idx + 1 + i := by omega
      rw [hidx]
      exact h i (by rw [List.length_cons] at hi; omega)
  · have hidx : idx + (i + 1) = idx + 1 + i := by omega
    exact Or.inr ⟨i + 1, l, source, hl, by rw [hidx]; exact hs, ho⟩

/-- **The startup loop** ends at the first bind that fails: the upstreams have been
accepted before. -/
theorem spawnListeners_ends {listeners : List ListenerConfig}
    (hup : ∀ l ∈ listeners, ∃ up, parseUpstream env.http l.upstream = .ok up) (idx : ℕ) (w : World) :
    (spawnListeners env idx listeners).Ends w fun o _ => Bound env idx listeners o := by
  induction listeners generalizing idx w with
  | nil => exact Or.inl ⟨rfl, fun i hi => by cases hi⟩
  | cons listener rest ih =>
    obtain ⟨up, hp⟩ := hup listener List.mem_cons_self
    unfold spawnListeners
    rw [hp, Prog.ofExcept_ok_bind]
    cases hb : env.bind idx with
    | some source => exact Or.inr ⟨0, listener, source, rfl, hb, rfl⟩
    | none =>
      have hrest := fun l hl => hup l (List.mem_cons_of_mem _ hl)
      refine Prog.ends_bind_ok (I := fun _ => True) ⟨rfl, trivial⟩ fun w₁ _ => ?_
      refine Prog.ends_bind_ok (I := fun _ => True) ⟨trace_ok _ _ w₁, trivial⟩ fun w₂ _ => ?_
      exact (ih hrest (idx + 1) w₂).mono fun _ _ h => h.cons hb

/-! ## The end of a start -/

theorem waitForShutdownSignal_served (hw : Written env w) :
    (waitForShutdownSignal env).Ends w fun o w' => o = .ok () ∧ Served env w' := by
  refine ⟨rfl, ?_, List.mem_append_right _ (List.mem_singleton_self _)⟩
  show (if pidFilePath env = pidFilePath env then env.others (w.files (pidFilePath env)) else _) = _
  rw [if_pos rfl, hw.pidFile]

theorem joinListeners_state (idx : ℕ) (listeners : List ListenerConfig) (w : World) :
    (joinListeners env idx listeners w).2 = w := by
  induction listeners generalizing idx with
  | nil => rfl
  | cons listener rest ih =>
    cases h : env.joinError idx with
    | some message =>
      simp only [joinListeners, h]
      rfl
    | none =>
      simp only [joinListeners, h]
      exact ih (idx + 1)

theorem trace_served (level : Level) (line : Str) : Prog.Keeps (Served env) (trace env level line) := by
  refine trace_keeps (fun entry w hw => ⟨?_, hw.serve⟩)
    (fun _ _ hw => ⟨hw.pidFile, List.mem_append_left _ hw.serve⟩) level line
  exact (if_neg (logFilePath_ne env).symm).trans hw.pidFile

theorem joinListeners_keeps {I : World → Prop} (idx : ℕ) (listeners : List ListenerConfig) :
    Prog.Keeps I (joinListeners env idx listeners) := by
  intro w hw
  rw [joinListeners_state]
  exact hw

/-- The end of `run`, once the drain is over. -/
theorem cleanup_serve (hw : .serve ∈ w.log) : (do
      removePidFile env
      trace env .info "Shutdown complete".toList : Prog World AppError Unit).Ends w fun o w' =>
        (∀ err, o ≠ .err err) ∧ .serve ∈ w'.log := by
  have hremove : Prog.Keeps (fun w => Effect.serve ∈ w.log) (removePidFile env) :=
    removePidFile_keeps (fun _ h => h) fun _ h => List.mem_append_left _ h
  have htrace : Prog.Keeps (fun w => Effect.serve ∈ w.log)
      (trace env .info "Shutdown complete".toList) := by
    refine trace_keeps (fun _ _ h => h) (fun _ _ h => ?_) _ _
    exact List.mem_append_left _ h
  refine Prog.ends_bind.2 ((hremove.ends hw).and (R := fun o _ => ∀ err, o ≠ .err err)
    (fun err => Prog.ignore_ne_err _ w err) |>.mono ?_)
  rintro o w₁ ⟨hw₁, ho⟩
  cases o with
  | ok u =>
    refine ⟨fun err => ?_, htrace w₁ hw₁⟩
    rw [trace_ok]
    simp
  | err e => exact absurd rfl (ho e)
  | exit n => exact ⟨by simp, hw₁⟩

/-- What a start leaves that ends with `o` in `w`; it serves if `c`. -/
def Left (env : Env) (c : Prop) (o : Outcome AppError Unit) (w : World) : Prop :=
  PidWritten env w → Failed o w → (¬ Named env w ↔ c ∧ Replaced env)

theorem left_of_fresh {c : Prop} {w₀ : World} {o : Outcome AppError Unit} (hw : Fresh env w₀ w) :
    Left env c o w := fun h => absurd h hw.written

theorem left_of_written (hpid : ValidPid env.pid) {c : Prop} (hc : ¬ c)
    {o : Outcome AppError Unit} (hw : Written env w) : Left env c o w := by
  intro _ _
  have hnamed : Named env w := by
    rw [Named, hw.pidFile]
    exact readPidFile_writePidFile hpid
  exact ⟨fun h => absurd hnamed h, fun h => absurd h.1 hc⟩

theorem left_of_served {c : Prop} (hc : c) {o : Outcome AppError Unit} (hw : Served env w) :
    Left env c o w := by
  intro _ _
  rw [Named, hw.pidFile]
  exact ⟨fun h => ⟨hc, h⟩, fun h => h.2⟩

/-- From the signal on, the start serves, and fails only with an error of a task. -/
theorem signal_left {c : Prop} (hc : c) (hw : Written env w) (config : Config) :
    (do
      waitForShutdownSignal env
      shutdown env config : Prog World AppError Unit).Ends w (Left env c) := by
  have hserved : ∀ (o : Outcome AppError Unit) w, Served env w → Left env c o w :=
    fun _ _ => left_of_served hc
  refine Prog.ends_bind_ok (waitForShutdownSignal_served hw) fun w₁ hw₁ => ?_
  unfold shutdown
  refine Prog.ends_bind_keeps (trace_served _ _) hw₁ (fun _ => hserved _) (fun _ => hserved _) ?_
  intro _ w₂ hw₂
  refine Prog.ends_bind_keeps (joinListeners_keeps 0 _) hw₂ (fun _ => hserved _)
    (fun _ => hserved _) fun _ w₃ hw₃ => ?_
  refine Prog.ends_bind_keeps (drain_keeps trace_served config) hw₃ (fun _ => hserved _)
    (fun _ => hserved _) fun _ w₄ hw₄ => ?_
  refine (cleanup_serve hw₄.serve).mono ?_
  rintro o w₅ ⟨hok, hserve⟩ - (h | ⟨err, h⟩)
  · exact absurd hserve h
  · exact absurd h (hok err)

/-- The file determines the configuration. -/
theorem exists_parsed {content : Str} {config : Config} {P : Config → Prop}
    (hy : env.parseYaml content = .ok config) : (∃ content' config',
      Entry.text content = .text content' ∧ env.parseYaml content' = .ok config' ∧ P config') ↔
        P config := by
  constructor
  · rintro ⟨_, config', ⟨⟩, hy', h⟩
    rw [hy] at hy'
    cases hy'
    exact h
  · intro h
    exact ⟨content, config, rfl, hy, h⟩

theorem serveable_text {content : Str} {config : Config} (hy : env.parseYaml content = .ok config) :
    Serveable env (.text content) ↔ config.validate env.http = .ok () ∧
      ∀ idx < config.listeners.length, env.bind idx = none := exists_parsed hy

/-- `run` with a valid configuration: it serves if every bind succeeds. -/
theorem spawn_left (hpid : ValidPid env.pid) {config : Config}
    (hv : config.validate env.http = .ok ()) {c : Prop}
    (hc : c ↔ ∀ idx < config.listeners.length, env.bind idx = none) (level : Str)
    (hw : Written env w) : (do
      initLogging env level
      trace env .info "RetroTLS v1.4.0 starting...".toList
      serving env config : Prog World AppError Unit).Ends w (Left env c) := by
  have hup : ∀ l ∈ config.listeners, ∃ up, parseUpstream env.http l.upstream = .ok up :=
    fun l hl => ((validate_ok.1 hv).2 l hl).2
  refine Prog.ends_bind_ok (initLogging_ends hw level) fun w₀ hw₀ => ?_
  refine Prog.ends_bind_ok ⟨trace_ok _ _ w₀, trace_written _ _ w₀ hw₀⟩ fun w₁ hw₁ => ?_
  have hspawn := (spawnListeners_ends hup 0 w₁).and ((spawnListeners_written 0 _).ends hw₁)
  simp only [Bound, Nat.zero_add] at hspawn
  unfold serving
  refine Prog.ends_bind.2 (hspawn.mono ?_)
  rintro o w₂ ⟨⟨rfl, hb⟩ | ⟨i, l, source, hl, hs, rfl⟩, hw₂⟩
  · exact signal_left (hc.2 hb) hw₂ _
  · refine left_of_written hpid (fun h => ?_) hw₂
    have hi : i < config.listeners.length := (List.getElem?_eq_some_iff.1 hl).1
    rw [hc.1 h i hi] at hs
    cases hs

/-- `run` from the load of the configuration on. -/
theorem load_left (hpid : ValidPid env.pid) (cli : Cli) (path : Path) (hw : Written env w) : (do
      let config ← loadConfig env path
      Prog.ofExcept (config.validate env.http)
      initLogging env ((cli.logLevel.or config.logLevel).getD "info".toList)
      trace env .info "RetroTLS v1.4.0 starting...".toList
      serving env config : Prog World AppError Unit).Ends w
        (Left env (Serveable env (w.files path))) := by
  refine Prog.ends_bind.2 ((loadConfig_ends hw path).mono ?_)
  rintro o w₁ ⟨hw₁, ho⟩
  -- without a configuration the start never serves
  have hno : (∀ config, o ≠ .ok config) → ¬ Serveable env (w.files path) := by
    rintro h ⟨content, config, hc, hy, -⟩
    exact h config ((ho config).2 ⟨content, hc, hy⟩)
  cases o with
  | err e => exact left_of_written hpid (hno (by simp)) hw₁
  | exit n => exact left_of_written hpid (hno (by simp)) hw₁
  | ok config =>
    obtain ⟨content, hc, hy⟩ := (ho config).1 rfl
    rw [hc, Prog.andThen_ok]
    cases hv : config.validate env.http with
    | error e =>
      refine left_of_written hpid ?_ hw₁
      rw [serveable_text hy, hv]
      rintro ⟨⟨⟩, -⟩
    | ok u =>
      have hserve : Serveable env (.text content) ↔
          ∀ idx < config.listeners.length, env.bind idx = none := by
        rw [serveable_text hy, hv]
        exact and_iff_right rfl
      rw [Prog.ofExcept_ok_bind]
      exact spawn_left hpid hv hserve _ hw₁

/-! ## Before the write -/

theorem removePidFile_fresh {w₀ : World} : Prog.Keeps (Fresh env w₀) (removePidFile env) :=
  removePidFile_keeps (setEntry_fresh _) (emit_fresh (by simp) (by simp))

theorem checkRunning_fresh {w₀ : World} : Prog.Keeps (Fresh env w₀) (checkRunning env) := by
  unfold checkRunning readPidFile readToString
  refine Prog.keeps_bind (Prog.keeps_bind (Prog.keeps_bind Prog.keeps_get fun _ => Prog.keeps_pure _)
    fun _ => Prog.keeps_pure _) fun pid => ?_
  split
  · exact Prog.keeps_pure _
  · refine Prog.keeps_bind ?_ fun running => ?_
    · exact Prog.keeps_bind (emit_fresh (by simp) (by simp)) fun _ => Prog.keeps_pure _
    · split
      · exact Prog.keeps_throw _
      · exact removePidFile_fresh

/-- **`write_pid_file`** writes the file and no other, or nothing. -/
theorem writePidFile_ends {w₀ : World} (hw : Fresh env w₀ w) :
    (writePidFile env env.pid).Ends w fun o w' =>
      (o = .ok () ∧ Written env w' ∧ ∀ path, w'.files path = seen env w₀ path) ∨
        (o ≠ .ok () ∧ Fresh env w₀ w') := by
  have hparent : Prog.Keeps (Fresh env w₀) (createParent env (pidFilePath env)) :=
    createParent_keeps (fun _ => emit_fresh (by simp) (by simp)) _
  unfold writePidFile
  refine Prog.ends_bind_keeps hparent hw (fun _ _ h => Or.inr ⟨by simp, h⟩)
    (fun _ _ h => Or.inr ⟨by simp, h⟩) fun _ w' hw' => ?_
  have hput : ∀ (entry : Entry) path, path ≠ pidFilePath env →
      (w'.put (pidFilePath env) entry).files path = w₀.files path := by
    intro entry path hp
    rw [← hw'.files path hp]
    exact if_neg hp
  refine (write_ends env _ _ w').mono ?_
  rintro o w₁ hwrote
  cases hwrote with
  | whole _ _ =>
    refine Or.inl ⟨rfl, ⟨if_pos rfl, not_mem_emit hw'.serve (by simp)⟩, fun path => ?_⟩
    unfold seen
    split
    · rename_i hp
      exact if_pos hp
    · rename_i hp
      exact hput _ path hp
  | part _ _ =>
    exact Or.inr ⟨by simp, not_mem_emit hw'.written (by simp), not_mem_emit hw'.serve (by simp), hput _⟩
  | kept _ => exact Or.inr ⟨by simp, hw'⟩

/-- **A failed start leaves its PID in the file.** If a foreground start has written its
PID file and ends before it serves, or with an error, the file does not name the process
then only where the configuration is valid and all listeners are bound, so that it has
served, and others have replaced or removed the file meanwhile. -/
theorem failed_start_iff (hpid : ValidPid env.pid) {cli : Cli}
    (hcommand : cli.command = some (.start true)) (hcheck : cli.check = false)
    (hlog : w.log = []) (hwritten : PidWritten env (run env cli w).2)
    (hfailed : Failed (run env cli w).1 (run env cli w).2) :
    ¬ Named env (run env cli w).2 ↔
      Serveable env (seen env w (cli.config.getD (defaultConfigPath env))) ∧ Replaced env := by
  have hfresh : Fresh env w w := by
    refine ⟨?_, ?_, fun _ _ => rfl⟩
    · rw [PidWritten, hlog]
      simp
    · rw [hlog]
      simp
  have hstart : ∀ path, (start env cli true path).Ends w
      (Left env (Serveable env (seen env w path))) := by
    intro path
    unfold start
    refine Prog.ends_bind_keeps checkRunning_fresh hfresh (fun _ _ => left_of_fresh)
      (fun _ _ => left_of_fresh) fun _ w₁ hw₁ => ?_
    show (serve env cli path).Ends w₁ _
    unfold serve
    refine Prog.ends_bind.2 (Prog.ends_mapErr.2 ((writePidFile_ends hw₁).mono ?_))
    rintro o w₂ (⟨rfl, hw₂, hfiles⟩ | ⟨ho, hw₂⟩)
    · have hload := load_left hpid cli path hw₂
      rw [hfiles path] at hload
      exact hload
    · cases o with
      | ok u => exact absurd rfl ho
      | err e => exact left_of_fresh hw₂
      | exit n => exact left_of_fresh hw₂
  have hrun : run env cli = start env cli true (cli.config.getD (defaultConfigPath env)) := by
    unfold run
    rw [hcommand, hcheck]
    rfl
  rw [hrun] at hwritten hfailed ⊢
  exact hstart _ hwritten hfailed

/-- A world without a configuration file, where nothing fails. -/
def noConfig : World := ⟨fun _ => .absent, []⟩

def calm : Env where
  http := httpCrate
  home := some [[], "home".toList]
  args := ["start".toList, "--foreground".toList]
  pid := 4242
  kill := fun _ _ => false
  createDirAll := fun _ => none
  create := fun _ => none
  writeAll := fun _ => none
  openAppend := fun _ => none
  traced := fun _ _ line => line ++ ['\n']
  remove := fun _ => none
  currentExe := none
  spawn := none
  parseYaml := fun _ => .error []
  bind := fun _ => none
  joinError := fun _ => none
  timesOut := false
  others := id

/-- `retrotls start --foreground`. -/
def startCli : Cli := ⟨some (.start true), none, false, none⟩

theorem failed_start_iff_noConfig : ¬ Named calm (run calm startCli noConfig).2 ↔
    Serveable calm (seen calm noConfig (startCli.config.getD (defaultConfigPath calm))) ∧
      Replaced calm :=
  failed_start_iff (by decide) rfl rfl rfl (by decide +kernel) (Or.inl (by decide +kernel))

/-- The start writes its PID, creates a configuration and exits: its PID stays. -/
theorem first_start_leaves_pid : PidWritten calm (run calm startCli noConfig).2 ∧
    (run calm startCli noConfig).1 = .exit 0 ∧ Effect.serve ∉ (run calm startCli noConfig).2.log ∧
    Named calm (run calm startCli noConfig).2 := by
  refine ⟨by decide +kernel, by decide +kernel, by decide +kernel, by decide +kernel⟩

end Run

end Retrotls
