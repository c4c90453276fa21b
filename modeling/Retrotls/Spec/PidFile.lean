import Retrotls.Lib.Text
import Mathlib.Data.Int.Basic

/-!
# The PID file

The text that `write_pid_file` writes, what `read_pid_file` reads in it, and the
argument that `libc::kill` gets.
-/

namespace Retrotls

/-- What `write_pid_file` writes. -/
def writePidFile (pid : ℕ) : Str := decimal pid

/-- `read_pid_file`, for the content of the file, if it can be read. -/
def readPidFile (content : Option Str) : Option ℕ := content.bind fun t => parseU32 (trim t)

/-- `pid as i32`. -/
def asI32 (pid : ℕ) : ℤ := if pid < 2147483648 then pid else pid - 4294967296

/-- The process ids there are: from 1 to `i32::MAX`. -/
def ValidPid (pid : ℕ) : Prop := 0 < pid ∧ pid < 2147483648

instance (pid : ℕ) : Decidable (ValidPid pid) := inferInstanceAs (Decidable (_ ∧ _))

/-- **A PID that is written is read back.** -/
theorem readPidFile_writePidFile {pid : ℕ} (h : ValidPid pid) :
    readPidFile (some (writePidFile pid)) = some pid := by
  have hlt : pid < 4294967296 := by
    obtain ⟨-, h⟩ := h
    omega
  rw [readPidFile, Option.bind_some, writePidFile, trim_decimal]
  exact parse_decimal hlt

theorem asI32_of_valid {pid : ℕ} (h : ValidPid pid) : asI32 pid = pid := if_pos h.2

end Retrotls
