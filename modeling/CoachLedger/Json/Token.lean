/-
**Tokens of JSON texts.**

A JSON text is a sequence of tokens.  The scanner goes over the characters once and collects the
tokens up to the first character that no JSON text has at its place; the rest of the text is then
one token `fault`.  A word is a maximal run of characters that are neither blank nor quote nor
punctuation: it is a literal name or a number.  Two kinds of token are well formed as text and
yet have no value, a number that is too large and a string with half of a surrogate pair, and
they carry `none`.

Main definitions:

* `CoachLedger.Json.Token` — the tokens;
* `CoachLedger.Json.Scanner.step` — the scanner's reaction to one character;
* `CoachLedger.Json.Token.scan` — the tokens of a text;
* `CoachLedger.Json.Token.spell` — the text of a token.
-/

import CoachLedger.Json.Numeral
import CoachLedger.Text.Hex

set_option autoImplicit false

namespace CoachLedger.Json

/-- A token of a JSON text. -/
inductive Token
  | openArray
  | closeArray
  | openObject
  | closeObject
  | colon
  | comma
  | null
  | bool (b : Bool)
  | number (n : Option Numeral)
  | string (s : Option String)
  /-- No JSON text continues like this. -/
  | fault
deriving DecidableEq, Repr

/-- Where the scanner stands. -/
inductive Scanner.Mode
  /-- Between two tokens. -/
  | between
  /-- In a word, whose characters so far are held in reverse. -/
  | word (reversed : List Char)
  /-- In a string: the characters so far in reverse, unless they lack a value, and the first half
  of a surrogate pair that waits for its second half. -/
  | string (reversed : Option (List Char)) (high : Option Nat)
  /-- After a backslash. -/
  | escape (reversed : Option (List Char)) (high : Option Nat)
  /-- After `\u` and some hexadecimal digits, whose number and value are given. -/
  | hex (reversed : Option (List Char)) (high : Option Nat) (count value : Nat)
  /-- After a fault. -/
  | dead
deriving DecidableEq, Repr

/-- The tokens so far, in reverse, and the place of the scanner. -/
structure Scanner where
  tokens : List Token
  mode : Scanner.Mode
deriving DecidableEq, Repr

namespace Token

/-- The token that a word is. -/
def ofWord (word : List Char) : Token :=
  if word = ['n', 'u', 'l', 'l'] then null
  else if word = ['t', 'r', 'u', 'e'] then bool true
  else if word = ['f', 'a', 'l', 's', 'e'] then bool false
  else
    match Numeral.read? word with
    | some n => number n
    | none => fault

/-- The punctuation token of a character. -/
def punctuation? : Char → Option Token
  | '[' => some openArray
  | ']' => some closeArray
  | '\x7b' => some openObject
  | '\x7d' => some closeObject
  | ':' => some colon
  | ',' => some comma
  | _ => none

end Token

/-- The four blanks that may stand between tokens. -/
def isGap (c : Char) : Bool :=
  c == ' ' || c == '\t' || c == '\n' || c == '\r'

/-- The character that a one-letter escape stands for. -/
def unescape? : Char → Option Char
  | '"' => some '"'
  | '\\' => some '\\'
  | '/' => some '/'
  | 'b' => some '\x08'
  | 'f' => some '\x0c'
  | 'n' => some '\n'
  | 'r' => some '\r'
  | 't' => some '\t'
  | _ => none

namespace Scanner

/-- The scanner before the first character. -/
def initial : Scanner := ⟨[], .between⟩

/-- The scanner with one more token, between tokens. -/
def push (s : Scanner) (t : Token) : Scanner :=
  ⟨t :: s.tokens, if t = .fault then .dead else .between⟩

/-- Faces a character that does not belong to a word or string. -/
def open_ (s : Scanner) (c : Char) : Scanner :=
  if isGap c then { s with mode := .between }
  else if c = '"' then { s with mode := .string (some []) none }
  else
    match Token.punctuation? c with
    | some t => s.push t
    | none => { s with mode := .word [c] }

/-- A string continues with a character. -/
def extend (reversed : Option (List Char)) (c : Char) : Option (List Char) :=
  reversed.map (c :: ·)

/-- A first half of a surrogate pair that is not followed by the second one leaves the string
without a value. -/
def settle (reversed : Option (List Char)) (high : Option Nat) : Option (List Char) :=
  if high.isNone then reversed else none

/-- The mode after the four digits of `\u`. -/
def afterHex (reversed : Option (List Char)) (high : Option Nat) (value : Nat) : Mode :=
  if 0xDC00 ≤ value ∧ value ≤ 0xDFFF then
    match high with
    | some h =>
        let c := Char.ofNat (0x10000 + (h - 0xD800) * 0x400 + (value - 0xDC00))
        .string (extend reversed c) none
    | none => .string none none
  else if 0xD800 ≤ value ∧ value ≤ 0xDBFF then .string (settle reversed high) (some value)
  else .string (extend (settle reversed high) (Char.ofNat value)) none

/-- The reaction to one character. -/
def step (s : Scanner) (c : Char) : Scanner :=
  match s.mode with
  | .between => s.open_ c
  | .word reversed =>
      if isGap c || c == '"' || (Token.punctuation? c).isSome then
        let s := s.push (.ofWord reversed.reverse)
        if s.mode = .dead then s else s.open_ c
      else { s with mode := .word (c :: reversed) }
  | .string reversed high =>
      if c = '"' then
        s.push (.string ((settle reversed high).map fun cs => String.ofList cs.reverse))
      else if c = '\\' then { s with mode := .escape reversed high }
      else if c.toNat < 0x20 then s.push .fault
      else { s with mode := .string (extend (settle reversed high) c) none }
  | .escape reversed high =>
      if c = 'u' then { s with mode := .hex reversed high 0 0 }
      else
        match unescape? c with
        | some d => { s with mode := .string (extend (settle reversed high) d) none }
        | none => s.push .fault
  | .hex reversed high count value =>
      match Text.hexValue? c with
      | some d =>
          let value := 16 * value + d
          if count = 3 then { s with mode := afterHex reversed high value }
          else { s with mode := .hex reversed high (count + 1) value }
      | none => s.push .fault
  | .dead => s

/-- The scanner at the end of the text. -/
def finish (s : Scanner) : Scanner :=
  match s.mode with
  | .between | .dead => s
  | .word reversed => s.push (.ofWord reversed.reverse)
  | .string .. | .escape .. | .hex .. => s.push .fault

end Scanner

namespace Token

/-- The tokens of a text, up to the first fault. -/
def scan (cs : List Char) : List Token :=
  ((cs.foldl Scanner.step Scanner.initial).finish.tokens).reverse

/-! ### Spelling -/

/-- A character inside a string: quote, backslash and the control characters are escaped. -/
def escapeChar (c : Char) : List Char :=
  if c = '"' then ['\\', '"']
  else if c = '\\' then ['\\', '\\']
  else if c = '\x08' then ['\\', 'b']
  else if c = '\x0c' then ['\\', 'f']
  else if c = '\n' then ['\\', 'n']
  else if c = '\r' then ['\\', 'r']
  else if c = '\t' then ['\\', 't']
  else if c.toNat < 0x20 then
    ['\\', 'u', '0', '0', Text.hexDigit (c.toNat / 16), Text.hexDigit (c.toNat % 16)]
  else [c]

/-- The text of a token. -/
def spell : Token → List Char
  | openArray => ['[']
  | closeArray => [']']
  | openObject => ['\x7b']
  | closeObject => ['\x7d']
  | colon => [':']
  | comma => [',']
  | null => ['n', 'u', 'l', 'l']
  | bool true => ['t', 'r', 'u', 'e']
  | bool false => ['f', 'a', 'l', 's', 'e']
  | number (some n) => n.text
  | string (some s) => '"' :: (s.toList.flatMap escapeChar ++ ['"'])
  | number none | string none | fault => []

end Token

end CoachLedger.Json
