/-
**Evaluating a predicate member by member.**

The members of a group are evaluated one after the other.  The first one with the truth value that
decides the group ends it, and the members after that are not looked at; an unknown one is
remembered, and makes the group unknown if no member decides it.

Main definitions:

* `CoachLedger.Predicate.scan` — the truth value of a predicate on a record;
* `CoachLedger.Predicate.scanUntil` — that of the members of a group.
-/

import CoachLedger.Predicate.Basic

set_option autoImplicit false

namespace CoachLedger.Predicate

mutual

/-- The truth value of a predicate on a record. -/
def scan (r : Record) : Predicate → Option Bool
  | everything => some true
  | idle _ => some true
  | clause column c => c.evaluate (r.get column)
  | not inner => (scan r inner).map fun b => !b
  | and members => scanUntil r false false members
  | or members => scanUntil r true false members
termination_by structural p => p

/-- The truth value of a group, from its members on.  The value `decisive` ends it; `unknown` says
that a member before these was unknown. -/
def scanUntil (r : Record) (decisive unknown : Bool) : List Predicate → Option Bool
  | [] => if unknown then none else some (!decisive)
  | p :: ps =>
      match scan r p with
      | none => scanUntil r decisive true ps
      | some b => if b = decisive then some decisive else scanUntil r decisive unknown ps
termination_by structural ps => ps

end

end CoachLedger.Predicate
