import Mathlib

/-!
# The C platform

Error numbers as the kernel headers define them, and strings without their
terminating zero. `snprintf` cuts a string to the size of the array.
-/

set_option autoImplicit false

namespace RS485.Platform

def EPERM : ℤ := 1
/-- `EIO` -/
def eio : ℤ := 5
def ENOMEM : ℤ := 12
def EEXIST : ℤ := 17
def ENODEV : ℤ := 19
def EINVAL : ℤ := 22
def ETIMEDOUT : ℤ := 110

theorem eperm_neg : -EPERM < 0 := by decide

theorem einval_neg : -EINVAL < 0 := by decide

abbrev CString := List Char

def snprintf (size : ℕ) (text : CString) : CString := text.take (size - 1)

end RS485.Platform
