import Retrotls.Spec.ConfigRs
import Retrotls.Spec.PidFile
import Retrotls.Lib.Prog

/-!
# One process, from its command line to its end

`run` of `main.rs` with all that it calls, as a program over the files and a record of
what the process does to the outside. The outside answers through `Env`: the file
system's errors, `kill`, binds, listener tasks and the YAML parser.

Paths are their components, and are told apart by them; the first component of an
absolute path is empty. Each line that `run` logs goes to the log file, and with it what the
tasks log until the next; their traffic is not here, but in `Spec/Server` and `Spec/Gateway`.
Panics and what is printed to stderr are left out.
-/

namespace Retrotls

/-- What reading a path finds. -/
inductive Entry
  | absent
  | text (content : Str)
  /-- Anything else: no permission, a directory, not UTF-8. -/
  | unreadable (source : Str)
  deriving DecidableEq

/-- A file that more is written to. Where its name is gone, nobody finds it again. -/
def Entry.append : Entry → Str → Entry
  | text content, more => text (content ++ more)
  | entry, _ => entry

inductive Signal
  /-- Signal 0: only the check. -/
  | probe
  | term
  deriving DecidableEq

/-- What a process does to the outside. -/
inductive Effect
  | createDirAll (path : Path)
  | write (path : Path) (content : Str)
  /-- A write that ends early: the file is there, with what has been written. -/
  | writePart (path : Path) (written : Str)
  | openAppend (path : Path)
  | append (path : Path) (more : Str)
  | remove (path : Path)
  | kill (target : ℤ) (signal : Signal)
  | spawn (args : List Str)
  | logging (level : Str)
  | listen (addr : SocketAddr)
  /-- All listeners are bound, and the signal is waited for. -/
  | serve
  | print (line : Str)
  deriving DecidableEq

/-- The files, and what the process has done so far. -/
structure World where
  files : Path → Entry
  log : List Effect

/-- What the outside answers. -/
structure Env where
  http : HttpCrate
  /-- The variable `HOME`. -/
  home : Option Path
  /-- The arguments, without the program's name. -/
  args : List Str
  pid : ℕ
  /-- `kill(target, signal) == 0`. -/
  kill : ℤ → Signal → Bool
  createDirAll : Path → Option IoError
  /-- `File::create`. -/
  create : Path → Option IoError
  /-- `write_all`, and how much it has written when it fails. -/
  writeAll : Path → Option (ℕ × IoError)
  openAppend : Path → Option IoError
  /-- What is written to the log file, behind what it has, with a line: the line as it is
  formatted, if its level is enabled, and what the tasks log until the next line. -/
  traced : Entry → Level → Str → Str
  remove : Path → Option IoError
  currentExe : Option IoError
  spawn : Option IoError
  /-- `serde_yaml::from_str`. -/
  parseYaml : Str → Except Str Config
  /-- The bind of listener `idx`. -/
  bind : ℕ → Option IoError
  /-- The error of joining listener task `idx`. -/
  joinError : ℕ → Option Str
  /-- The drain times out. -/
  timesOut : Bool
  /-- What other processes have made of the PID file when the signal is handled. -/
  others : Entry → Entry

/-- `Commands`. -/
inductive Commands
  | start (foreground : Bool)
  | stop
  | version
  deriving DecidableEq

/-- `Cli`. -/
structure Cli where
  command : Option Commands
  config : Option Path
  check : Bool
  logLevel : Option Str
  deriving DecidableEq

/-- `Path::parent`. -/
def Path.parent (path : Path) : Option Path :=
  if path = [] ∨ path = [[]] then none else some path.dropLast

/-- `Path::display`. -/
def Path.display (path : Path) : Str := ['/'].intercalate path

namespace Run

variable (env : Env)

/-- Record an effect. -/
def emit {ε : Type} (e : Effect) : Prog World ε Unit :=
  Prog.modify fun w => { w with log := w.log ++ [e] }

def setEntry {ε : Type} (path : Path) (entry : Entry) : Prog World ε Unit :=
  Prog.modify fun w => { w with files := fun p => if p = path then entry else w.files p }

/-- `std::fs::read_to_string`. -/
def readToString {ε : Type} (path : Path) : Prog World ε (Except IoError Str) := do
  let w ← Prog.get
  pure <| match w.files path with
    | .absent => .error ⟨.notFound, "No such file or directory (os error 2)".toList⟩
    | .text content => .ok content
    | .unreadable source => .error ⟨.other, source⟩

/-- `std::fs::create_dir_all`. -/
def createDirAll (path : Path) : Prog World IoError Unit :=
  match env.createDirAll path with
  | some source => Prog.throw source
  | none => emit (.createDirAll path)

/-- `create_dir_all` of the parent, if there is one. -/
def createParent (path : Path) : Prog World IoError Unit :=
  match path.parent with
  | some parent => createDirAll env parent
  | none => pure ()

/-- `std::fs::write`: the file is created or emptied, and then written. -/
def write (path : Path) (content : Str) : Prog World IoError Unit :=
  match env.create path, env.writeAll path with
  | some source, _ => Prog.throw source
  | none, some (count, source) => do
    setEntry path (.text (content.take count))
    emit (.writePart path (content.take count))
    Prog.throw source
  | none, none => do
    setEntry path (.text content)
    emit (.write path content)

/-- `std::fs::OpenOptions`, creating the file and appending to it. -/
def openAppend (path : Path) : Prog World IoError Unit :=
  match env.openAppend path with
  | some source => Prog.throw source
  | none => do
    let w ← Prog.get
    setEntry path (if w.files path = .absent then .text [] else w.files path)
    emit (.openAppend path)

/-- `std::fs::remove_file`. -/
def removeFile (path : Path) : Prog World IoError Unit := do
  let w ← Prog.get
  if w.files path = .absent then
    Prog.throw ⟨.notFound, "No such file or directory (os error 2)".toList⟩
  else
    match env.remove path with
    | some source => Prog.throw source
    | none => do
      setEntry path .absent
      emit (.remove path)

/-- `libc::kill`, and whether it returned 0. -/
def kill {ε : Type} (target : ℤ) (signal : Signal) : Prog World ε Bool := do
  emit (.kill target signal)
  pure (env.kill target signal)

/-! ## The PID file -/

def retrotlsHome : Path :=
  match env.home with
  | some home => home ++ [".retrotls".toList]
  | none => [".retrotls".toList]

def pidFilePath : Path := retrotlsHome env ++ ["retrotls.pid".toList]

/-- `write_pid_file`. -/
def writePidFile (pid : ℕ) : Prog World IoError Unit := do
  createParent env (pidFilePath env)
  write env (pidFilePath env) (Retrotls.writePidFile pid)

/-- `read_pid_file`. -/
def readPidFile : Prog World AppError (Option ℕ) := do
  let content ← readToString (pidFilePath env)
  pure (Retrotls.readPidFile content.toOption)

/-- `remove_pid_file`. -/
def removePidFile : Prog World AppError Unit := (removeFile env (pidFilePath env)).ignore

/-- `is_process_running`. -/
def isProcessRunning (pid : ℕ) : Prog World AppError Bool := kill env (asI32 pid) .probe

/-- `stop_daemon`. -/
def stopDaemon : Prog World AppError Unit := do
  match ← readPidFile env with
  | none => Prog.throw .notRunning
  | some pid =>
    let running ← isProcessRunning env pid
    if !running then do
      -- a stale file goes, whoever wrote it
      removePidFile env
      Prog.throw .notRunning
    else do
      let sent ← kill env (asI32 pid) .term
      if !sent then
        Prog.throw (.configValidation ("Failed to send signal to process ".toList ++ decimal pid))
      else do
        emit (.print ("RetroTLS daemon stop signal sent (PID: ".toList ++ decimal pid ++ [')']))
        removePidFile env

/-- `daemonize`. -/
def daemonize : Prog World IoError Unit :=
  let args := env.args.filter (fun arg => arg != "--foreground".toList && arg != "-f".toList) ++
    ["--foreground".toList]
  match env.currentExe, env.spawn with
  | some source, _ => Prog.throw source
  | none, some source => Prog.throw source
  | none, none => do
    emit (.spawn args)
    -- the child is not waited for
    Prog.exit 0

/-! ## The configuration -/

def defaultConfigPath : Path :=
  match env.home with
  | some home => home ++ [".retrotls".toList, "config.yaml".toList]
  | none => [".retrotls".toList, "config.yaml".toList]

/-- `DEFAULT_CONFIG_CONTENT`. -/
def defaultConfigContent : Str :=
  ("log_level: \"info\"\naccess_log: true\nlisteners:\n  - listen: \"127.0.0.1:8080\"\n" ++
    "    upstream: \"https://api.example.com\"\n").toList

/-- `create_default_config`. -/
def createDefaultConfig (path : Path) : Prog World AppError Unit := do
  (createParent env path).mapErr fun e =>
    .configValidation ("Failed to create config directory ".toList ++
      (path.parent.getD []).display ++ ": ".toList ++ e.text)
  (write env path defaultConfigContent).mapErr fun e =>
    .configValidation ("Failed to write default config to ".toList ++ path.display ++
      ": ".toList ++ e.text)

/-- `load_config`. -/
def loadConfig (path : Path) : Prog World AppError Config := do
  match ← readToString path with
  | .ok content =>
    match env.parseYaml content with
    | .ok config => pure config
    | .error source => Prog.throw (.configParse path source)
  | .error source =>
    if source.kind = .notFound then do
      createDefaultConfig env path
      -- no caller sees this end
      Prog.exit 0
    else Prog.throw (.configRead path source)

/-! ## `run` -/

def logFilePath : Path := retrotlsHome env ++ ["logs".toList, "retrotls.log".toList]

/-- `init_logging`: to the log file, or to stderr where that cannot be opened. -/
def initLogging (level : Str) : Prog World AppError Unit := do
  (createParent env (logFilePath env)).ignore
  (openAppend env (logFilePath env)).ignore
  emit (.logging level)

/-- `info!` and `warn!`, once the logging is set up. -/
def trace (level : Level) (line : Str) : Prog World AppError Unit := do
  let w ← Prog.get
  let path := logFilePath env
  let more := env.traced (w.files path) level line
  -- otherwise it goes to stderr
  if env.openAppend path = none ∧ more ≠ [] then do
    setEntry path ((w.files path).append more)
    emit (.append path more)
  else pure ()

/-- The startup loop, from listener `idx` on: `parse_upstream` and `spawn_listener`. -/
def spawnListeners (idx : ℕ) : List ListenerConfig → Prog World AppError Unit
  | [] => pure ()
  | listener :: rest => do
    let upstream ← Prog.ofExcept (parseUpstream env.http listener.upstream)
    match env.bind idx with
    | some source => Prog.throw (.bindFailed listener.listen source)
    | none => do
      emit (.listen listener.listen)
      trace env .info ("Listening on ".toList ++ listener.listen.display ++ " -> ".toList ++
        upstream.base.toText)
      spawnListeners (idx + 1) rest

/-- `wait_for_shutdown_signal`, and what happens to the PID file meanwhile. -/
def waitForShutdownSignal : Prog World AppError Unit := do
  emit .serve
  let w ← Prog.get
  setEntry (pidFilePath env) (env.others (w.files (pidFilePath env)))

/-- The loop over the listener tasks' handles, from task `idx` on. -/
def joinListeners (idx : ℕ) : List ListenerConfig → Prog World AppError Unit
  | [] => pure ()
  | _ :: rest =>
    match env.joinError idx with
    | some message => Prog.throw (.listenerTask message)
    | none => joinListeners (idx + 1) rest

/-- `wait_for_in_flight`, with its timeout. -/
def drain (config : Config) : Prog World AppError Unit :=
  if env.timesOut then
    trace env .warn ("Timed out waiting for in-flight requests to finish after ".toList ++
      decimal (config.shutdownTimeoutSecs.getD 30) ++ ['s'])
  else pure ()

/-- `run`, from the signal on. -/
def shutdown (config : Config) : Prog World AppError Unit := do
  trace env .info "Shutdown signal received".toList
  joinListeners env 0 config.listeners
  drain env config
  removePidFile env
  trace env .info "Shutdown complete".toList

/-- `run`, from the startup loop on. -/
def serving (config : Config) : Prog World AppError Unit := do
  spawnListeners env 0 config.listeners
  waitForShutdownSignal env
  shutdown env config

/-- `run`, from `write_pid_file` on. -/
def serve (cli : Cli) (configPath : Path) : Prog World AppError Unit := do
  (writePidFile env env.pid).mapErr .io
  -- from here to the drain, no failure removes the PID file
  let config ← loadConfig env configPath
  Prog.ofExcept (config.validate env.http)
  initLogging env ((cli.logLevel.or config.logLevel).getD "info".toList)
  trace env .info "RetroTLS v1.4.0 starting...".toList
  serving env config

/-- The check of `run` whether a daemon is running. -/
def checkRunning : Prog World AppError Unit := do
  match ← readPidFile env with
  | none => pure ()
  | some pid =>
    let running ← isProcessRunning env pid
    if running then Prog.throw (.alreadyRunning pid) else removePidFile env

/-- `run`, from that check on. -/
def start (cli : Cli) (foreground : Bool) (configPath : Path) : Prog World AppError Unit := do
  checkRunning env
  if !foreground then (daemonize env).mapErr .io else serve env cli configPath

/-- `run` with `--check`. -/
def check (configPath : Path) : Prog World AppError Unit := do
  let config ← loadConfig env configPath
  Prog.ofExcept (config.validate env.http)
  emit (.print "Configuration valid".toList)

/-- `run`. -/
def run (cli : Cli) : Prog World AppError Unit :=
  let configPath := cli.config.getD (defaultConfigPath env)
  match cli.command with
  | some .stop => stopDaemon env
  | some .version => emit (.print "1.4.0".toList)
  | some (.start foreground) =>
    if cli.check then check env configPath else start env cli foreground configPath
  | none => if cli.check then check env configPath else start env cli false configPath

/-- The exit status of `main`. -/
def status : Outcome AppError Unit → ℕ
  | .ok _ => 0
  | .err _ => 1
  | .exit n => n

end Run

end Retrotls
