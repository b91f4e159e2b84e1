/-
**Quoted texts.**

The description of a predicate shows an operator that nobody knows in double quotes.  Inside them
the quote and the backslash follow a backslash, line breaks and tabs have letters, NUL is `\0`,
and every hidden character is spelled by its code point, such as `\u{200b}`; all other characters
stand for themselves.

Main definitions:

* `CoachLedger.Text.quoted` — a text in quotes.
-/

import CoachLedger.Text.Hidden

set_option autoImplicit false

namespace CoachLedger.Text

/-- A character inside quotes. -/
def quoteChar (c : Char) : List Char :=
  if c = '"' then ['\\', '"']
  else if c = '\\' then ['\\', '\\']
  else if c = '\n' then ['\\', 'n']
  else if c = '\r' then ['\\', 'r']
  else if c = '\t' then ['\\', 't']
  else if c.toNat = 0 then ['\\', '0']
  else if isHidden c then
    ['\\', 'u', '\x7b'] ++ Nat.toDigits 16 c.toNat ++ ['\x7d']
  else [c]

/-- A text in quotes. -/
def quoted (s : String) : String :=
  String.ofList ('"' :: (s.toList.flatMap quoteChar ++ ['"']))

end CoachLedger.Text
