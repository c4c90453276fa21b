import Retrotls.Proof.Effects

/-!
# What a run signals

* `run_targets`: every argument of `kill` is the cast of the recorded PID.
* `run_terms`: at most one `SIGTERM` is sent.
* `writePidFile_recorded`: a PID that is written is the recorded one.
* `signals_recorded_iff`: **only the recorded process is signalled**, in every run, exactly
  when the recorded number is a process id.
-/

namespace Retrotls

/-- The effect sends `SIGTERM`. -/
def Effect.isTerm : Effect → Bool
  | .kill _ .term => true
  | _ => false

namespace Run

variable {env : Env} {cli : Cli} {files : Path → Entry}

/-- **Every target is the cast of the recorded number.** -/
theorem run_targets {target : ℤ} {signal : Signal}
    (h : .kill target signal ∈ effects env cli files) :
    ∃ pid, recorded env files = some pid ∧ target = asI32 pid := by
  let P : Effect → Prop := fun e => ∀ t s, e = .kill t s →
    ∃ pid, recorded env files = some pid ∧ t = asI32 pid
  have hserving : ∀ e : Effect, e.isServing = true → P e := by
    rintro e he t s rfl
    cases he
  have hkill : ∀ pid signal, recorded env files = some pid → P (.kill (asI32 pid) signal) := by
    rintro pid signal hr t s ⟨rfl, rfl⟩
    exact ⟨pid, hr, rfl⟩
  have hall : LogAll P (run env cli ⟨files, []⟩).2 :=
    run_logAll hserving (fun pid hr => hkill pid _ hr) (fun e he => by cases he)
      (fun line t s hl => by cases hl) (fun _ t s hs => by cases hs) fun _ pid hr => hkill pid _ hr
  exact hall _ h target signal rfl

/-- A run that is no `stop` sends no `SIGTERM`. -/
theorem no_term (hc : cli.command ≠ some .stop) {e : Effect} (h : e ∈ effects env cli files) :
    e.isTerm = false := by
  have hserving : ∀ e : Effect, e.isServing = true → e.isTerm = false := by
    intro e he
    cases e <;> first | rfl | cases he
  have hall : LogAll (fun e => e.isTerm = false) (run env cli ⟨files, []⟩).2 :=
    run_logAll hserving (fun _ _ => rfl) (fun e he => by cases he) (fun _ => rfl) (fun _ => rfl)
      fun hs => absurd hs hc
  exact hall e h

theorem removed_terms (env : Env) (w : World) :
    (removed env w).log.countP Effect.isTerm = w.log.countP Effect.isTerm := by
  unfold removed
  split
  · rfl
  · simp [Effect.isTerm]

/-- **At most one `SIGTERM` is sent.** -/
theorem run_terms : (effects env cli files).countP Effect.isTerm ≤ 1 := by
  by_cases hc : cli.command = some .stop
  · have hrun : effects env cli files = (stopDaemon env ⟨files, []⟩).2.log := by
      unfold effects run
      rw [hc]
    rw [hrun, stopDaemon_eq]
    cases recorded env (⟨files, []⟩ : World).files with
    | none => exact Nat.zero_le _
    | some pid =>
      dsimp only
      split
      · split
        · rw [removed_terms]
          exact le_rfl
        · exact le_rfl
      · rw [removed_terms]
        exact Nat.zero_le _
  · have hzero : (effects env cli files).countP Effect.isTerm = 0 := by
      refine List.countP_eq_zero.2 fun e he => ?_
      rw [no_term hc he]
      simp
    omega

/-- **What `write_pid_file` writes is recorded.** -/
theorem writePidFile_recorded {pid : ℕ} (hpid : ValidPid pid) (w : World)
    (h : (writePidFile env pid w).1 = .ok ()) :
    recorded env (writePidFile env pid w).2.files = some pid := by
  have hends : (writePidFile env pid).Ends w fun o w' =>
      o = .ok () → recorded env w'.files = some pid := by
    have hkeeps : Prog.Keeps (fun _ => True) (createParent env (pidFilePath env)) :=
      fun _ _ => trivial
    unfold writePidFile
    refine Prog.ends_bind_keeps hkeeps trivial (fun _ _ _ h => by cases h)
      (fun _ _ _ h => by cases h) fun _ w' _ => ?_
    refine (write_ends env _ _ w').mono ?_
    rintro o w'' hwrote ho
    cases hwrote with
    | whole _ _ =>
      show Retrotls.readPidFile (if pidFilePath env = pidFilePath env then
        Entry.text (Retrotls.writePidFile pid) else _).content = _
      rw [if_pos rfl]
      exact readPidFile_writePidFile hpid
    | part _ _ => cases ho
    | kept _ => cases ho
  exact hends h

/-- **Only the recorded process is signalled**: its PID is the number in the file, as a
positive `i32`, and a number that is no process id counts as no running daemon. -/
structure SignalsRecorded (env : Env) (files : Path → Entry) (cli : Cli) : Prop where
  target : ∀ (target : ℤ) (signal : Signal), .kill target signal ∈ effects env cli files →
    ∃ pid : ℕ, recorded env files = some pid ∧ target = pid ∧ 0 < target ∧ target < 2147483648
  once : (effects env cli files).countP Effect.isTerm ≤ 1
  refused : cli.command = some .stop → ∀ pid, recorded env files = some pid → ¬ ValidPid pid →
    outcome env cli files = .err .notRunning ∧
      ∀ (target : ℤ) (signal : Signal), .kill target signal ∉ effects env cli files

/-- `retrotls stop`. -/
def stopCli : Cli := ⟨some .stop, none, false, none⟩

/-- A `stop` that finds a number probes it. -/
theorem stop_probes {pid : ℕ} (hr : recorded env files = some pid) :
    .kill (asI32 pid) .probe ∈ effects env stopCli files := by
  show _ ∈ (stopDaemon env ⟨files, []⟩).2.log
  have hmem : ∀ w : World, .kill (asI32 pid) .probe ∈ w.log →
      .kill (asI32 pid) .probe ∈ (removed env w).log := by
    intro w hw
    unfold removed
    split
    · exact hw
    · exact List.mem_append_left _ hw
  have hr' : recorded env (⟨files, []⟩ : World).files = some pid := hr
  rw [stopDaemon_eq, hr']
  dsimp only
  split
  · split
    · exact hmem _ (by simp [World.add])
    · simp [World.add]
  · exact hmem _ (by simp [World.add])

/-- **Exactly when every run signals the recorded process only**: the number in the PID
file, if there is one, is a process id. -/
theorem signals_recorded_iff : ((∀ cli, SignalsRecorded env files cli) ∧
    ∀ pid w, ValidPid pid → (writePidFile env pid w).1 = .ok () →
      recorded env (writePidFile env pid w).2.files = some pid) ↔
      ∀ pid, recorded env files = some pid → ValidPid pid := by
  constructor
  · rintro ⟨h, -⟩ pid hr
    by_contra hpid
    exact ((h stopCli).refused rfl pid hr hpid).2 _ _ (stop_probes hr)
  · intro h
    refine ⟨fun cli => ⟨fun target signal hk => ?_, run_terms, fun _ pid hr hpid => ?_⟩, ?_⟩
    · obtain ⟨pid, hr, ht⟩ := run_targets hk
      rw [asI32_of_valid (h pid hr)] at ht
      obtain ⟨h1, h2⟩ := h pid hr
      exact ⟨pid, hr, ht, by omega, by omega⟩
    · exact absurd (h pid hr) hpid
    · intro pid w hpid hok
      exact writePidFile_recorded hpid w hok

/-- A world with a PID file, where every signal is delivered. -/
def pidFileWith (content : Str) : Path → Entry := fun path =>
  if path = pidFilePath calm then .text content else .absent

def alive : Env := { calm with kill := fun _ _ => true }

/-- **With 4294967295 in the file, `stop` signals every process** (`kill(-1, SIGTERM)`), and
with 0 its own process group. -/
theorem stop_signals_all :
    .kill (-1) .term ∈ effects alive stopCli (pidFileWith "4294967295".toList) ∧
      .kill 0 .term ∈ effects alive stopCli (pidFileWith "0".toList) ∧
        ¬ SignalsRecorded alive (pidFileWith "4294967295".toList) stopCli := by
  have hall : .kill (-1) .term ∈ effects alive stopCli (pidFileWith "4294967295".toList) := by
    decide +kernel
  refine ⟨hall, by decide +kernel, fun h => ?_⟩
  obtain ⟨pid, -, -, hpos, -⟩ := h.target _ _ hall
  omega

end Run

end Retrotls
