/-
**Environment variables.**

Options that are not given on the command line can come from environment variables.  A variable
that is set keeps its value: others are only added.

Main definitions:

* `CoachLedger.Environment` — variables with their values;
* `CoachLedger.Environment.valueOf` — the value of a variable, empty if it is not set;
* `CoachLedger.Environment.addMissing` — adds a variable unless it is set.
-/

set_option autoImplicit false

namespace CoachLedger

/-- Variables with their values. -/
abbrev Environment := List (String × String)

namespace Environment

/-- The value of a variable, empty if it is not set. -/
def valueOf (env : Environment) (name : String) : String := (env.lookup name).getD ""

/-- The environment with a variable added, unless it is set. -/
def addMissing (env : Environment) (name value : String) : Environment :=
  if (env.lookup name).isSome then env else env ++ [(name, value)]

end Environment

end CoachLedger
