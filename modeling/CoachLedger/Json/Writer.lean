/-
**Writing JSON values.**

A value is written as the spelling of its tokens, without blanks.  For a reader's eye it can also
be written with one item or member per line, indented by two blanks for each level.

Main definitions:

* `CoachLedger.Json.tokens` — the tokens of a value;
* `CoachLedger.Json.text` — the compact text of a value;
* `CoachLedger.Json.pretty` — the indented text of a value.
-/

import CoachLedger.Json.Token

set_option autoImplicit false

namespace CoachLedger.Json

mutual

/-- The tokens of a value in reverse, before those in `reversed`. -/
def emit (reversed : List Token) : Json → List Token
  | null => .null :: reversed
  | bool b => .bool b :: reversed
  | number n => .number (some n) :: reversed
  | string s => .string (some s) :: reversed
  | array items => .closeArray :: emitItems (.openArray :: reversed) true items
  | object members => .closeObject :: emitMembers (.openObject :: reversed) true members
termination_by structural v => v

/-- The tokens of the items of an array; all but the first follow a comma. -/
def emitItems (reversed : List Token) (first : Bool) : List Json → List Token
  | [] => reversed
  | v :: vs => emitItems (emit (if first then reversed else .comma :: reversed) v) false vs
termination_by structural vs => vs

/-- The tokens of the members of an object; all but the first follow a comma. -/
def emitMembers (reversed : List Token) (first : Bool) : List (String × Json) → List Token
  | [] => reversed
  | (k, v) :: ms =>
      let before := if first then reversed else .comma :: reversed
      emitMembers (emit (.colon :: .string (some k) :: before) v) false ms
termination_by structural ms => ms

end

/-- The tokens of a value. -/
def tokens (v : Json) : List Token :=
  (emit [] v).reverse

/-- The characters of the compact text of a value. -/
def chars (v : Json) : List Char :=
  v.tokens.flatMap Token.spell

/-- The compact text of a value. -/
def text (v : Json) : String :=
  String.ofList v.chars

/-! ### Indented texts -/

/-- A new line with an indentation. -/
def newLine (level : Nat) : List Char :=
  '\n' :: List.replicate (2 * level) ' '

/-- The tokens spelled with a line for each item and member.  `level` counts the open arrays and
objects; `opened` tells that one has just been opened. -/
def indent (level : Nat) (opened : Bool) : List Token → List Char
  | [] => []
  | t :: ts =>
      let lead := if opened then newLine level else []
      match t with
      | .openArray | .openObject => lead ++ t.spell ++ indent (level + 1) true ts
      | .closeArray | .closeObject =>
          (if opened then [] else newLine (level - 1)) ++ t.spell ++ indent (level - 1) false ts
      | .comma => t.spell ++ newLine level ++ indent level false ts
      | .colon => t.spell ++ ' ' :: indent level false ts
      | _ => lead ++ t.spell ++ indent level false ts

/-- The indented text of a value. -/
def pretty (v : Json) : String :=
  String.ofList (indent 0 false v.tokens)

end CoachLedger.Json
