/-
**Alignment of two arrays.**

To compare two versions of a list, the entries of the old and the new version are paired first,
either position by position or by what identifies them.  An entry is identified by the value of a
chosen member, or else by its member `id`; entries that nothing identifies pair among themselves
in their order.

Main definitions:

* `CoachLedger.Audit.Alignment` — the two ways of pairing;
* `CoachLedger.Audit.Pair` — the positions of two paired entries;
* `CoachLedger.Audit.align` — the pairs of two arrays;
* `CoachLedger.Audit.identifier?` — what identifies an entry.
-/

import CoachLedger.Json.Canonical
import CoachLedger.Record.Kind

set_option autoImplicit false

namespace CoachLedger.Audit

/-- How the entries of two arrays are paired. -/
inductive Alignment
  | positional
  | byIdentity
deriving DecidableEq, Repr

/-- How changes are described. -/
structure Options where
  /-- The member that identifies an entry. -/
  identityField : String
  alignment : Alignment
deriving DecidableEq, Repr

/-- Coach numbers identify entries, which are paired by position. -/
def Options.standard : Options := ⟨CoachLedger.identityField, .positional⟩

/-- The member that identifies an entry without the chosen member. -/
def fallbackField : String := "id"

/-- A member of an entry that is neither missing nor null. -/
def present? (entry : Json) (name : String) : Option Json :=
  match entry with
  | .object members => (Json.member? members name).filter fun v => !v.isNull
  | _ => none

/-- The canonical text of what identifies an entry. -/
def identifier? (o : Options) (entry : Json) : Option String :=
  ((present? entry o.identityField).or (present? entry fallbackField)).map Json.canonical

/-- The positions of two paired entries; an entry without a partner has only its own. -/
structure Pair where
  old : Option Nat
  new : Option Nat
deriving DecidableEq, Repr

/-- The position of a pair: that of the new entry, or else of the old one. -/
def Pair.position (p : Pair) : Nat :=
  p.new.getD (p.old.getD 0)

/-- Pairs of positions of two arrays of the given lengths. -/
def alignByPosition (m n : Nat) : List Pair :=
  (List.range (max m n)).map fun i =>
    ⟨if i < m then some i else none, if i < n then some i else none⟩

/-- Pairs each new entry with the first old entry left that has the same identifier; the old
entries left at the end follow without a partner.  Entries are given as positions with their
identifiers. -/
def alignByIdentifier (olds : List (Nat × Option String)) :
    List (Nat × Option String) → List Pair
  | [] => olds.map fun o => ⟨some o.1, none⟩
  | (j, key) :: news =>
      match olds.find? fun o => o.2 == key with
      | some o => ⟨some o.1, some j⟩ :: alignByIdentifier (olds.eraseP fun o => o.2 == key) news
      | none => ⟨none, some j⟩ :: alignByIdentifier olds news

/-- Identifiers with their positions. -/
def indexed (keys : List (Option String)) : List (Nat × Option String) :=
  keys.zipIdx.map fun p => (p.2, p.1)

/-- The positions and identifiers of the entries of an array. -/
def identified (o : Options) (entries : List Json) : List (Nat × Option String) :=
  indexed (entries.map (identifier? o))

/-- The pairs of two arrays. -/
def align (o : Options) (olds news : List Json) : List Pair :=
  match o.alignment with
  | .positional => alignByPosition olds.length news.length
  | .byIdentity => alignByIdentifier (identified o olds) (identified o news)

end CoachLedger.Audit
