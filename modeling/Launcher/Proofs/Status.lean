/-
This file says which status words fail, and which category the status of an error number has.
-/

import Launcher.Status

namespace Launcher.Status

@[simp] theorem failed_ok : Status.ok.failed = false := by decide

/-- The failure bit of an error is set, whatever its category and cause are. -/
@[simp] theorem failed_error (category : Category) (cause : Cause) :
    (Status.error category cause).failed = true := by
  have severe : Severity.warning.code.sle Severity.error.code = true := by decide
  have bit : (0x80000000#32).msb = true := by decide
  simp only [Status.error, make, pack, failed, severe, if_true, BitVec.msb_or, bit, Bool.true_or]

/-- Only the number zero stands for no error. -/
theorem failed_ofErrno {errno : Errno} (some : errno.number ≠ 0) :
    (Status.ofErrno errno).failed = true := by
  unfold ofErrno
  rw [if_neg some]
  split <;> exact failed_error _ _

/-- The causes that have an error number are of the file system or the system, but for one. -/
theorem category_causes : ∀ entry ∈ causes, entry.1 ≠ .badExecutable →
    (error entry.2.1 entry.2.2).category = Category.fileSystem.code.toNat ∨
      (error entry.2.1 entry.2.2).category = Category.system.code.toNat := by
  decide

/-- Only a file that cannot be executed is a matter of the running program. -/
theorem category_ofErrno {errno : Errno} (some : errno.number ≠ 0)
    (executable : errno ≠ .badExecutable) :
    (ofErrno errno).category = Category.fileSystem.code.toNat ∨
      (ofErrno errno).category = Category.system.code.toNat := by
  unfold ofErrno
  rw [if_neg some]
  split
  · rename_i category cause known
    obtain ⟨front, back, split, _⟩ := List.lookup_eq_some_iff.mp known
    exact category_causes (errno, category, cause) (by simp [split]) executable
  · exact .inr (by decide)

end Launcher.Status
