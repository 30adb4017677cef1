import HeaderFlattening.Text.Basic

/-!
Remarks on a conversion that its caller should see.
-/

set_option autoImplicit false
namespace HeaderFlattening

/-- A warning says that the output may not be what the input asked for; an info tells of a change
that the output shows faithfully. -/
inductive Severity where
  | warning
  | info
  deriving DecidableEq, Repr

structure Diagnostic where
  severity : Severity
  message : Text
  /-- The line that the remark is about, counted from one. -/
  line : Option Nat := none
  help : Option Text := none
  deriving DecidableEq, Repr

end HeaderFlattening
