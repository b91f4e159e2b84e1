/-
**The lines of a file with variables.**

A line of such a file goes on in the next one while a quote is open, and also if it ends within an
escape or after a blank.  A `#` after a blank starts a comment.  The comment's place is counted in
bytes from the start of its own line, and as many bytes of the whole are kept.

Main definitions:

* `CoachLedger.Environment.Lines.State` — what a line leaves open;
* `CoachLedger.Environment.Lines.ending` — how a line ends;
* `CoachLedger.Environment.Lines.join` — the lines with their continuations.
-/

import CoachLedger.Text.Blank

set_option autoImplicit false

namespace CoachLedger.Environment.Lines

/-! ### Cutting into lines -/

/-- The lines of a text, each with its line feed. -/
def split : List Char → List (List Char)
  | [] => []
  | c :: cs =>
      if c = '\n' then [c] :: split cs
      else
        match split cs with
        | [] => [[c]]
        | line :: rest => (c :: line) :: rest

/-- The first characters of a text that fit into a number of bytes. -/
def takeBytes (n : Nat) : List Char → List Char
  | [] => []
  | c :: cs => if c.utf8Size ≤ n then c :: takeBytes (n - c.utf8Size) cs else []

/-- The line without its end, a line feed perhaps after a carriage return. -/
def chomp (line : List Char) : List Char :=
  match line.reverse with
  | '\n' :: '\r' :: rest => rest.reverse
  | '\n' :: rest => rest.reverse
  | _ => line

/-! ### What a line leaves open -/

/-- What a line leaves open. -/
inductive State
  /-- Nothing is open. -/
  | plain
  /-- The last character is a blank, and a comment may start. -/
  | afterBlank
  /-- The last character is a backslash. -/
  | escape
  /-- A quote is open. -/
  | quoted (mark : Char)
  /-- A quote is open, and the last character is a backslash. -/
  | quotedEscape (mark : Char)
deriving DecidableEq, Repr

/-- What a character opens. -/
def opened (c : Char) : State :=
  if c = '\\' then .escape else if c = '"' ∨ c = '\'' then .quoted c else .plain

/-- What is open after one more character. -/
def step (s : State) (c : Char) : State :=
  match s with
  | .plain => if Text.isBlank c ∧ c ≠ '\n' ∧ c ≠ '\r' then .afterBlank else opened c
  | .afterBlank => opened c
  | .escape => .plain
  | .quoted mark => if c = '\\' then .quotedEscape mark else if c = mark then .plain else s
  | .quotedEscape mark => .quoted mark

/-- How a line ends. -/
inductive Ending
  | leaves (s : State)
  /-- A comment starts after so many bytes. -/
  | comment (bytes : Nat)
deriving DecidableEq, Repr

/-- How a line ends that starts in a state, with the bytes before it. -/
def ending (s : State) (bytes : Nat) : List Char → Ending
  | [] => .leaves s
  | c :: cs =>
      if s = .afterBlank ∧ c = '#' then .comment bytes
      else ending (step s c) (bytes + c.utf8Size) cs

/-! ### Joining lines -/

/-- The lines with their continuations, after what is open from the lines before; no result stands
for a line that is still open at the end of the text.  What starts with a `#` is empty. -/
def join (before : List Char) (s : State) : List (List Char) → List (Option (List Char))
  | [] => if s = .plain then [] else [none]
  | line :: rest =>
      let whole := before ++ line
      if (Text.trimStart whole).head? = some '#' then some [] :: join [] .plain rest
      else
        match ending s 0 line with
        | .comment bytes => some (takeBytes bytes whole) :: join [] .plain rest
        | .leaves .plain => some (chomp whole) :: join [] .plain rest
        | .leaves s => join whole s rest

/-- The lines of a text with their continuations. -/
def ofText (cs : List Char) : List (Option (List Char)) := join [] .plain (split cs)

end CoachLedger.Environment.Lines
