/-
**Where a store is kept.**

The path of a store names a file, or it is a resource name that starts with `file:`.  In a resource
name a percent sign and two hexadecimal digits stand for a byte, a `#` ends the name, and options
may follow a question mark: how the file may be used, and how it is locked.  Some names stand for
no file at all: such a store is gone after the run, and unless it is shared, each connection has
one of its own.

Main definitions:

* `CoachLedger.Locator` — where a store is kept, and how it may be used;
* `CoachLedger.Locator.read?` — the locator that a path denotes.
-/

import CoachLedger.Decimal.Basic
import CoachLedger.Host.Path
import CoachLedger.Text.Fold
import CoachLedger.Text.Hex

set_option autoImplicit false

namespace CoachLedger

namespace Locator

/-! ### Access -/

/-- How a store may be used. -/
inductive Access
  | readOnly
  /-- The store has to exist. -/
  | existing
  /-- The store is made if it does not exist. -/
  | creating
  /-- The store is in no file. -/
  | inMemory
deriving DecidableEq, Repr

namespace Access

/-- The access of a name. -/
def ofName? (s : String) : Option Access :=
  match s with
  | "ro" => some readOnly
  | "rw" => some existing
  | "rwc" => some creating
  | "memory" => some inMemory
  | _ => none

/-- How much an access allows. -/
def level : Access → Nat
  | readOnly => 1
  | existing => 2
  | creating => 3
  | inMemory => 4

/-- An access after another: it may not allow more, but a store can always be kept in memory. -/
def narrow? (a b : Access) : Option Access :=
  if b = inMemory ∨ b.level ≤ a.level then some b else none

end Access

/-! ### Resource names -/

/-- A sign of a resource name. -/
inductive Sign
  | literal (c : Char)
  /-- A byte that is given by its two digits. -/
  | byte (b : UInt8)
deriving DecidableEq, Repr

/-- The signs of a resource name, up to where it ends. -/
def signs : List Char → List Sign
  | [] => []
  | '#' :: _ => []
  | '%' :: x :: y :: cs =>
      match Text.hexValue? x, Text.hexValue? y with
      | some high, some low => .byte (UInt8.ofNat (16 * high + low)) :: signs cs
      | _, _ => .literal '%' :: signs (x :: y :: cs)
  | c :: cs => .literal c :: signs cs

/-- The bytes of a sign. -/
def Sign.bytes : Sign → List UInt8
  | .literal c => (String.singleton c).toUTF8.toList
  | .byte b => [b]

/-- The text of bytes; where they are no text, each is a character. -/
def textOfBytes (bs : List UInt8) : String :=
  (String.fromUTF8? ⟨bs.toArray⟩).getD (String.ofList (bs.map fun b => Char.ofNat b.toNat))

/-- The text of signs; a zero byte ends it. -/
def textOf (ss : List Sign) : String :=
  textOfBytes ((ss.takeWhile (· != .byte 0)).flatMap Sign.bytes)

/-- The signs before and after the first one of a kind. -/
def cut (c : Char) (ss : List Sign) : List Sign × List Sign :=
  (ss.takeWhile (· != .literal c), (ss.dropWhile (· != .literal c)).tail)

/-- The options of a query; those without a name do not count. -/
def optionsOf (query : List Sign) : List (String × String) :=
  let parts := (query.splitOn (.literal '&')).map (cut '=')
  (parts.map fun p => (textOf p.1, textOf p.2)).filter fun o => o.1 != ""

/-- What follows the authority, which must be empty or this machine. -/
def afterAuthority? (cs : List Char) : Option (List Char) :=
  match cs with
  | '/' :: '/' :: rest =>
      let authority := rest.takeWhile (· != '/')
      if authority = [] ∨ authority = "localhost".toList then some (rest.dropWhile (· != '/'))
      else none
  | cs => some cs

/-! ### Options -/

/-- What the options of a resource name say about its use. -/
structure Use where
  access : Access
  /-- The connections to the store share what they keep of it in memory. -/
  isShared : Bool
deriving DecidableEq, Repr

/-- The use without options. -/
def Use.standard : Use := ⟨.creating, false⟩

/-- The use after an option. -/
def Use.after? (u : Use) (o : String × String) : Option Use :=
  match o with
  | ("mode", name) =>
      ((Access.ofName? name).bind u.access.narrow?).map fun a => { u with access := a }
  | ("cache", "shared") => some { u with isShared := true }
  | ("cache", "private") => some { u with isShared := false }
  | ("cache", _) => none
  | _ => some u

/-- The ways in which files are used, and whether a log can be kept beside the file. -/
def engines : List (String × Bool) :=
  [("unix", true), ("unix-excl", true), ("unix-none", false), ("unix-dotfile", false),
    ("memdb", false)]

/-- The way that keeps stores in memory. -/
def memoryEngine : String := "memdb"

/-- A switch is on: a number that is not zero in its last byte, or a word. -/
def isOn (s : String) : Bool :=
  let digits := s.toList.takeWhile Char.isDigit
  if digits.isEmpty then ["on", "yes", "true"].contains (Text.fold s)
  else
    let n := Decimal.ofDigits digits
    n < 2147483648 && n % 256 != 0

end Locator

/-- Where a store is kept, and how it may be used. -/
structure Locator where
  /-- The file of the store, unless it is in memory. -/
  file : Option String
  isReadOnly : Bool
  /-- The file is made if it does not exist. -/
  mayCreate : Bool
  /-- The log that belongs to the store can be kept beside the file, or is not needed. -/
  keepsLog : Bool
  /-- Each connection has a store of its own, so that none finds what another has made. -/
  isPrivate : Bool
deriving DecidableEq, Repr

namespace Locator

/-- The name of a store that is in memory. -/
def memoryName : String := ":memory:"

/-- The locator of a file. -/
def ofFile (path : String) : Locator :=
  ⟨if path = memoryName then none else some path, false, true, true, path = memoryName⟩

/-- The locator of a resource name, given without its scheme. -/
def ofResource? (cs : List Char) : Option Locator := do
  let (name, query) := cut '?' (signs (← afterAuthority? cs))
  let file := textOf name
  let options := optionsOf query
  let use ← options.foldlM Use.after? .standard
  let engine := (options.reverse.lookup "vfs").getD "unix"
  let keepsLog ← engines.lookup engine
  let switch (name : String) : Bool := (options.lookup name).any isOn
  let isInMemory := file = "" ∨ file = memoryName ∨ use.access = .inMemory
  let isShared :=
    if engine = memoryEngine ∧ ¬isInMemory then Path.isAbsolute file
    else file != "" && use.isShared
  let hasFile : Bool := ¬(isInMemory ∨ engine = memoryEngine)
  some
    ⟨if hasFile then some file else none, use.access = .readOnly ∨ switch "immutable",
      use.access = .creating, switch "immutable" || (keepsLog && !switch "nolock"),
      !(hasFile || isShared)⟩

/-- The scheme of resource names. -/
def scheme : List Char := "file:".toList

/-- The path is a resource name. -/
def isResource (path : String) : Bool := scheme.isPrefixOf path.toList

/-- The locator that a path denotes. -/
def read? (path : String) : Option Locator :=
  if path.toList.contains '\x00' then none
  else if isResource path then ofResource? (path.toList.drop scheme.length)
  else some (ofFile path)

end Locator

end CoachLedger
