/-
**Files with variables.**

A file in the current directory can add to the environment variables, line by line.  A variable of
one line can be used in the lines after it, and a byte order mark in front is not looked at.  The
file is read up to the first line that is wrong.

Main definitions:

* `CoachLedger.Environment.addLines` — the environment with the variables of lines;
* `CoachLedger.Environment.withFile` — the environment with the variables of a file.
-/

import CoachLedger.Environment.Assignment
import CoachLedger.Environment.Lines

set_option autoImplicit false

namespace CoachLedger.Environment

/-- The environment with the variables of lines, up to the first line that is wrong. -/
def addLines (env : Environment) : List (Option (List Char)) → Environment
  | [] => env
  | line :: rest =>
      match line.bind (Assignment.read? env) with
      | none => env
      | some none => addLines env rest
      | some (some (name, value)) => addLines (env.addMissing name value) rest

/-- The text without the byte order mark in front. -/
def withoutMark (cs : List Char) : List Char :=
  match cs with
  | '\uFEFF' :: cs => cs
  | cs => cs

/-- The environment with the variables of a file that are not set yet. -/
def withFile (env : Environment) (text : String) : Environment :=
  env.addLines (Lines.ofText (withoutMark text.toList))

end CoachLedger.Environment
