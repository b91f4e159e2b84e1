/-
**Assignments of variables.**

A line of a file with variables has the form `NAME=value`; the word `export` may stand before the
name, and a comment after the value.  In a value quotes hold blanks together, a backslash escapes,
and `$NAME` and `${NAME}` stand for the value of another variable, except in single quotes.  The
character after the name in `$NAME` always stands for itself, unless it is a dollar sign.

Main definitions:

* `CoachLedger.Environment.Value.State` — the state of the reader of a value;
* `CoachLedger.Environment.Value.read?` — the value that a text denotes;
* `CoachLedger.Environment.Assignment.read?` — the assignment of a line.
-/

import CoachLedger.Environment.Basic
import CoachLedger.Text.Blank
import CoachLedger.Text.Word

set_option autoImplicit false

namespace CoachLedger.Environment

namespace Value

/-! ### The reader of a value -/

/-- What the reader of a value is in the middle of. -/
inductive Mode
  | text
  /-- After a backslash. -/
  | escape
  /-- In single quotes. -/
  | single
  /-- In a name after a dollar sign. -/
  | name (reversed : List Char)
  /-- In a name in braces. -/
  | braced (reversed : List Char)
  /-- After the value, where only a comment may follow. -/
  | ended
  | comment
deriving DecidableEq, Repr

/-- The state of the reader of a value. -/
structure State where
  mode : Mode
  /-- Double quotes are open. -/
  isQuoted : Bool
  /-- The value so far, last character first. -/
  reversed : List Char
deriving DecidableEq, Repr

/-- The state before a value. -/
def State.initial : State := ⟨.text, false, []⟩

/-- The state in another mode. -/
def State.to (s : State) (mode : Mode) : State := { s with mode := mode }

/-- The state after a character of the value. -/
def State.push (s : State) (c : Char) : State :=
  { s with mode := .text, reversed := c :: s.reversed }

/-- The state after the value of a variable. -/
def State.expand (s : State) (env : Environment) (reversedName : List Char) : State :=
  let value := env.valueOf (String.ofList reversedName.reverse)
  { s with mode := .text, reversed := value.toList.reverse ++ s.reversed }

/-- The character that an escape denotes. -/
def escaped? (c : Char) : Option Char :=
  if c = 'n' then some '\n'
  else if c ∈ ['\\', '\'', '"', '$', ' '] then some c
  else none

/-- The character ends a value that is not quoted. -/
def isGap (c : Char) : Bool := c == ' ' || c == '\t'

/-- A step in text. -/
def textStep (s : State) (c : Char) : State :=
  if c = '$' then s.to (.name [])
  else if c = '\\' then s.to .escape
  else if c = '"' then { s with isQuoted := !s.isQuoted }
  else if s.isQuoted then s.push c
  else if c = '\'' then s.to .single
  else if isGap c then s.to .ended
  else s.push c

/-- A step of the reader. -/
def step? (env : Environment) (s : State) (c : Char) : Option State :=
  match s.mode with
  | .text => some (textStep s c)
  | .escape => (escaped? c).map s.push
  | .single =>
      some (if c = '\'' then s.to .text else { s with reversed := c :: s.reversed })
  | .name reversed =>
      some
        (if Text.isWordChar c then s.to (.name (c :: reversed))
        else if c = '{' ∧ reversed = [] then s.to (.braced [])
        else if c = '$' then (s.expand env reversed).to (.name [])
        else (s.expand env reversed).push c)
  | .braced reversed =>
      some (if c = '}' then s.expand env reversed else s.to (.braced (c :: reversed)))
  | .ended => if isGap c then some s else if c = '#' then some (s.to .comment) else none
  | .comment => some s

/-- The state after the characters of a text. -/
def run (env : Environment) (s : State) (cs : List Char) : Option State :=
  cs.foldlM (step? env) s

/-- The value at the end of a text: nothing if a quote or a brace is open. -/
def State.finish? (s : State) (env : Environment) : Option String :=
  if s.isQuoted then none
  else
    match s.mode with
    | .single | .braced _ => none
    | .name reversed => some (String.ofList (s.expand env reversed).reversed.reverse)
    | _ => some (String.ofList s.reversed.reverse)

/-- The value that a text denotes. -/
def read? (env : Environment) (cs : List Char) : Option String :=
  (run env .initial cs).bind fun s => s.finish? env

end Value

/-! ### References -/

/-- The names of the variables that a text may refer to. -/
def references : List Char → List String
  | [] => []
  | c :: cs =>
      if c = '$' then
        let name :=
          match cs with
          | '{' :: rest => rest.takeWhile (· != '}')
          | _ => cs.takeWhile Text.isWordChar
        String.ofList name :: references cs
      else references cs

/-! ### Assignments -/

namespace Assignment

/-- The character may start the name of a variable. -/
def isNameStart (c : Char) : Bool := c.isAlpha || c == '_'

/-- The character may be in the name of a variable. -/
def isNamePart (c : Char) : Bool := c.isAlphanum || c == '_' || c == '.'

/-- A name at the front of a text, and what follows it. -/
def splitName? (cs : List Char) : Option (String × List Char) :=
  if cs.head?.any isNameStart then
    some (String.ofList (cs.takeWhile isNamePart), cs.dropWhile isNamePart)
  else none

/-- What follows an equals sign. -/
def afterEquals? (cs : List Char) : Option (List Char) :=
  match Text.trimStart cs with
  | '=' :: rest => some rest
  | _ => none

/-- The text is empty or a comment. -/
def isVacant (cs : List Char) : Bool := cs.isEmpty || cs.head? == some '#'

/-- The name that is assigned to, and what follows the equals sign. -/
def splitTarget? (cs : List Char) : Option (String × List Char) := do
  let (name, rest) ← splitName? cs
  match afterEquals? rest with
  | some rest => some (name, rest)
  | none => do
      if name = "export" then
        let (name, rest) ← splitName? (Text.trimStart rest)
        let rest ← afterEquals? rest
        some (name, rest)
      else none

/-- The assignment of a line: none if the line is blank or a comment, and no result if it is
anything else. -/
def read? (env : Environment) (line : List Char) : Option (Option (String × String)) :=
  let cs := Text.trimStart (Text.trimEnd line)
  if isVacant cs then some none
  else do
    let (name, rest) ← splitTarget? cs
    let rest := Text.trimStart rest
    if isVacant rest then some (some (name, ""))
    else
      let value ← Value.read? env rest
      some (some (name, value))

end Assignment

end CoachLedger.Environment
