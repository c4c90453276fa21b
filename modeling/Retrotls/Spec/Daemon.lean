import Retrotls.Spec.PidFile
import Retrotls.Lib.Lts
import Mathlib.Logic.Function.Basic

/-!
# The processes of one home directory

Foreground `start` and `stop` processes, step by step as in `run` and `stop_daemon` of
`main.rs`, over the PID file they share, together with any other processes. A run of
the system is a list of actions (`System.step`).

* A process may end at any step of its own accord (`die`): a failed start, a panic, or a
  signal that is not handled. A `start` without `--foreground` makes the same check as one
  that ends before it writes.
* Process ids are given out again once their process is gone.
* `kill(pid, 0)` succeeds for the processes there are. A `SIGTERM` starts the drain of a
  daemon that waits for it, is ignored by one that drains, and ends another
  `retrotls` process; another program may end of it or not.
-/

namespace Retrotls

/-- Where a process is. -/
inductive Proc
  /-- `start`, before `read_pid_file`. -/
  | begun
  /-- `start`, having read `pid`, before `is_process_running`. -/
  | probing (pid : ℕ)
  /-- `start`, before it removes the file of a process that is gone. -/
  | stale
  /-- `start`, before `write_pid_file`. -/
  | cleared
  /-- The file is written; the signal is not waited for yet. -/
  | written
  /-- In `wait_for_shutdown_signal`. -/
  | serving (signalled : Bool)
  /-- From the signal to `remove_pid_file`. -/
  | draining
  /-- `start`, after its last `remove_pid_file`. -/
  | removed
  /-- `stop`, before `read_pid_file`. -/
  | stopBegun
  /-- `stop`, having read `pid`, before `is_process_running`. -/
  | stopRead (pid : ℕ)
  /-- `stop`, before its `SIGTERM` to `pid`. -/
  | stopAlive (pid : ℕ)
  /-- `stop`, before it removes the file of a process that is gone. -/
  | stopDead
  /-- `stop`, before it removes the file of the process it signalled. -/
  | stopKilled
  /-- Nothing is left but to exit. -/
  | ending
  /-- Another program. -/
  | other
  deriving DecidableEq

/-- What can be executed. -/
inductive Program
  | start
  | stop
  | other
  deriving DecidableEq

def Program.entry : Program → Proc
  | .start => .begun
  | .stop => .stopBegun
  | .other => .other

/-- What a `SIGTERM` leaves of a process. -/
def Proc.sigterm : Proc → Option Proc
  | .serving _ => some (.serving true)
  | .draining => some .draining
  | .removed => some .removed
  | .other => some .other
  | _ => none

/-- The processes, and the content of the PID file. -/
structure System where
  procs : ℕ → Option Proc
  file : Option Str

namespace System

inductive Act
  | spawn (pid : ℕ) (program : Program)
  /-- The next step of the process. -/
  | own (pid : ℕ)
  /-- A signal from outside reaches a daemon that waits for it. -/
  | signal (pid : ℕ)
  | die (pid : ℕ)
  deriving DecidableEq

/-- No process yet, and any file that `read_pid_file` reads a possible PID in, or none. -/
def Initial (s : System) : Prop :=
  (∀ pid, s.procs pid = none) ∧ ∀ pid, readPidFile s.file = some pid → ValidPid pid

/-- Process `pid` is now `x`. -/
def set (s : System) (pid : ℕ) (x : Option Proc) : System :=
  { s with procs := Function.update s.procs pid x }

/-- `remove_pid_file`. -/
def removePidFile (s : System) : System := { s with file := none }

/-- `kill(target, 0) == 0`, for a target that is a process id. A target of 0 or below, which
names a process group or all processes, finds nobody here. -/
def kill0 (s : System) (target : ℤ) : Bool := 0 < target && (s.procs target.toNat).isSome

/-- `is_process_running`. -/
def isProcessRunning (s : System) (pid : ℕ) : Bool := s.kill0 (asI32 pid)

/-- `kill(target, SIGTERM)`, for a process that is there. -/
def kill (s : System) (target : ℤ) : System :=
  s.set target.toNat ((s.procs target.toNat).bind Proc.sigterm)

/-- The next step of process `pid`. -/
def own (s : System) (pid : ℕ) : Proc → Option System
  | .begun => some <| s.set pid <| some <|
      match readPidFile s.file with
      | none => .cleared
      | some q => .probing q
  | .probing q => some (s.set pid (some (if s.isProcessRunning q then .ending else .stale)))
  -- the file may have changed since it was read
  | .stale => some (s.removePidFile.set pid (some .cleared))
  | .cleared => some ({ s with file := some (writePidFile pid) }.set pid (some .written))
  | .written => some (s.set pid (some (.serving false)))
  | .serving true => some (s.set pid (some .draining))
  | .serving false => none
  -- whose PID the file holds now is not looked at
  | .draining => some (s.removePidFile.set pid (some .removed))
  | .removed => some (s.set pid none)
  | .stopBegun => some <| s.set pid <| some <|
      match readPidFile s.file with
      | none => .ending
      | some q => .stopRead q
  | .stopRead q => some (s.set pid (some (if s.isProcessRunning q then .stopAlive q else .stopDead)))
  | .stopAlive q =>
    if s.kill0 (asI32 q) then some ((s.set pid (some .stopKilled)).kill (asI32 q))
    else some (s.set pid (some .ending))
  | .stopDead => some (s.removePidFile.set pid (some .ending))
  | .stopKilled => some (s.removePidFile.set pid (some .ending))
  | .ending => some (s.set pid none)
  | .other => none

/-- One step of one process. -/
def step (s : System) : Act → Option System
  | .spawn pid program =>
    if ValidPid pid ∧ s.procs pid = none then some (s.set pid (some program.entry)) else none
  | .own pid => (s.procs pid).bind (s.own pid)
  | .signal pid =>
    match s.procs pid with
    | some (.serving _) => some (s.set pid (some .draining))
    | _ => none
  | .die pid => if (s.procs pid).isSome then some (s.set pid none) else none

end System

end Retrotls
