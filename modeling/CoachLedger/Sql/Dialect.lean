/-
**SQL dialects.**

Searches are written in one of two dialects of SQL, which differ in the placeholders of
parameters and in how texts are compared without regard to case.

Main definitions:

* `CoachLedger.Sql.Dialect` — the two dialects;
* `CoachLedger.Sql.Dialect.placeholder`, `CoachLedger.Sql.Dialect.like`,
  `CoachLedger.Sql.Dialect.equalsFolded` — what differs between them;
* `CoachLedger.Sql.placeholders` — a list of placeholders.
-/

import CoachLedger.Text.Fold

set_option autoImplicit false

namespace CoachLedger.Sql

/-- A dialect of SQL. -/
inductive Dialect
  | sqlite
  | postgres
deriving DecidableEq, Repr

namespace Dialect

/-- The name of a dialect. -/
def name : Dialect → String
  | sqlite => "sqlite"
  | postgres => "postgres"

/-- The dialect that a name denotes, in any case. -/
def ofName? (s : String) : Option Dialect :=
  let s := Text.fold s
  if s = "sqlite" then some sqlite
  else if s = "postgres" ∨ s = "postgresql" then some postgres
  else none

/-- The message about a name that denotes no dialect. -/
def invalidName (s : String) : String :=
  "Invalid SQL backend '" ++ s ++ "'. Valid options: sqlite, postgres"

/-- The placeholder of the parameter with the given number, counted from one. -/
def placeholder (d : Dialect) (index : Nat) : String :=
  match d with
  | sqlite => "?"
  | postgres => "$" ++ toString index

/-- A column matches a pattern without regard to case; the backslash is the escape character. -/
def like (d : Dialect) (column placeholder : String) : String :=
  match d with
  | sqlite => "LOWER(" ++ column ++ ") LIKE LOWER(" ++ placeholder ++ ") ESCAPE '\\'"
  | postgres => column ++ "::TEXT ILIKE " ++ placeholder ++ " ESCAPE '\\'"

/-- A column equals a text without regard to case. -/
def equalsFolded (d : Dialect) (column placeholder : String) : String :=
  match d with
  | sqlite => "LOWER(" ++ column ++ ") = LOWER(" ++ placeholder ++ ")"
  | postgres => "LOWER(" ++ column ++ "::TEXT) = LOWER(" ++ placeholder ++ ")"

/-- A parameter that compares as a date. -/
def dateParameter (d : Dialect) (placeholder : String) : String :=
  match d with
  | sqlite => placeholder
  | postgres => "CAST(" ++ placeholder ++ " AS DATE)"

/-- A page of the result. -/
def limitOffset (_ : Dialect) (limit offset : Nat) : String :=
  "LIMIT " ++ toString limit ++ " OFFSET " ++ toString offset

end Dialect

/-- As many unnumbered placeholders as given. -/
def placeholders (count : Nat) : String :=
  String.intercalate ", " (List.replicate count "?")

end CoachLedger.Sql
