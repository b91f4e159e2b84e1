/-
**The tree of a JSON text up to its first fault.**

Readers of filters and configuration files look at the parts of a text in the order in which they
are written, and report the first thing that is wrong, whether that is the shape of a value or
the JSON itself.  The tree of a text therefore exists for every text: where the text stops being
JSON the tree has a leaf `fault`, after which nothing follows.  A part that a reader skips may
hold numbers and strings without a value, and may be nested to any depth.

Main definitions:

* `CoachLedger.Json.Tree` — trees;
* `CoachLedger.Json.Builder.step` — a partial tree extended by one token;
* `CoachLedger.Json.Outline`, `CoachLedger.Json.outline` — the tree of a text, and whether the
  text ends with it.
-/

import CoachLedger.Json.Token

set_option autoImplicit false

namespace CoachLedger.Json

/-- A JSON text as a tree.  The name of a member is absent if it has no value. -/
inductive Tree
  | null
  | bool (b : Bool)
  | number (n : Option Numeral)
  | string (s : Option String)
  | array (items : List Tree)
  | object (members : List (Option String × Tree))
  /-- The text stops being JSON here. -/
  | fault
deriving Inhabited, Repr

namespace Builder

/-- An array or object that is not closed yet, with its contents in reverse. -/
inductive Frame
  | array (items : List Tree)
  | object (members : List (Option String × Tree)) (name : Option (Option String))

/-- What may come next. -/
inductive Phase
  /-- A value. -/
  | value
  /-- The first item of an array, or its end. -/
  | firstItem
  /-- The first name of an object, or its end. -/
  | firstName
  /-- The name of a further member. -/
  | name
  /-- The colon after a name. -/
  | colon
  /-- A comma or the end of the innermost array or object. -/
  | separator
  /-- Nothing: the text is complete. -/
  | done (root : Tree)
  /-- Nothing: the text is at fault. -/
  | stuck

end Builder

/-- A partial tree: the open arrays and objects, innermost first, and what may come next. -/
structure Builder where
  frames : List Builder.Frame
  phase : Builder.Phase
  /-- Tokens have followed the complete text. -/
  surplus : Bool

namespace Builder

/-- Before the first token. -/
def initial : Builder := ⟨[], .value, false⟩

/-- A value is complete. -/
def complete (b : Builder) (t : Tree) : Builder :=
  match b.frames with
  | .array items :: rest => { b with frames := .array (t :: items) :: rest, phase := .separator }
  | .object members (some name) :: rest =>
      { b with frames := .object ((name, t) :: members) none :: rest, phase := .separator }
  | .object _ none :: _ => { b with phase := .stuck }
  | [] => { b with phase := .done t }

/-- A token that starts a value. -/
def startValue (b : Builder) : Token → Builder
  | .null => b.complete .null
  | .bool v => b.complete (.bool v)
  | .number n => b.complete (.number n)
  | .string s => b.complete (.string s)
  | .openArray => { b with frames := .array [] :: b.frames, phase := .firstItem }
  | .openObject => { b with frames := .object [] none :: b.frames, phase := .firstName }
  | _ => { b with phase := .stuck }

/-- The innermost array or object ends. -/
def close (b : Builder) (t : Token) : Builder :=
  match b.frames, t with
  | .array items :: rest, .closeArray => { b with frames := rest }.complete (.array items.reverse)
  | .object members none :: rest, .closeObject =>
      { b with frames := rest }.complete (.object members.reverse)
  | _, _ => { b with phase := .stuck }

/-- A token that names a member. -/
def startName (b : Builder) (t : Token) : Builder :=
  match b.frames, t with
  | .object members none :: rest, .string s =>
      { b with frames := .object members (some s) :: rest, phase := .colon }
  | _, _ => { b with phase := .stuck }

/-- A comma. -/
def separate (b : Builder) : Builder :=
  match b.frames with
  | .array _ :: _ => { b with phase := .value }
  | .object .. :: _ => { b with phase := .name }
  | [] => { b with phase := .stuck }

/-- The partial tree extended by one token. -/
def step (b : Builder) (t : Token) : Builder :=
  match b.phase with
  | .value => b.startValue t
  | .firstItem => if t = .closeArray then b.close t else b.startValue t
  | .firstName => if t = .closeObject then b.close t else b.startName t
  | .name => b.startName t
  | .colon => { b with phase := if t = .colon then .value else .stuck }
  | .separator => if t = .comma then b.separate else b.close t
  | .done _ => { b with surplus := true }
  | .stuck => b

/-- The open arrays and objects closed around a tree that stands where the text broke off. -/
def breakOff (t : Tree) : List Frame → Tree
  | [] => t
  | .array items :: rest => breakOff (.array (t :: items).reverse) rest
  | .object members name :: rest => breakOff (.object ((name.join, t) :: members).reverse) rest

end Builder

/-- The tree of a text, and whether the text is complete with it. -/
structure Outline where
  root : Tree
  complete : Bool

/-- The tree at the end of the tokens. -/
def Builder.finish (b : Builder) : Outline :=
  match b.phase with
  | .done root => ⟨root, !b.surplus⟩
  | _ => ⟨Builder.breakOff .fault b.frames, false⟩

/-- The tree of a list of tokens. -/
def Outline.ofTokens (ts : List Token) : Outline :=
  (ts.foldl Builder.step Builder.initial).finish

/-- The tree of a text. -/
def outline (text : String) : Outline :=
  .ofTokens (Token.scan text.toList)

end CoachLedger.Json
