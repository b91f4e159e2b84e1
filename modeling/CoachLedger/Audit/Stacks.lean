/-
**Pairing by stacks.**

The pairs of two arrays that are aligned by identifiers can be found in one pass.  The positions of
the old entries are put on stacks, one for each identifier and one for the entries without, the
first on top.  Each new entry takes a position from the stack of its identifier, and what it takes
is marked as used.  At the end the old entries follow that are not.

Main definitions:

* `CoachLedger.Audit.Stacks` — stacks of positions;
* `CoachLedger.Audit.Matching` — the stacks, what is used and the pairs, between two new entries;
* `CoachLedger.Audit.pairByStacks?` — the pairs, found by means of stacks.
-/

import CoachLedger.Audit.Alignment
import Mathlib.Data.List.Infix

set_option autoImplicit false

namespace CoachLedger.Audit

/-! ### Stacks of positions -/

/-- The positions of entries, the last one on top: those of each identifier, and those of entries
without one. -/
structure Stacks where
  keyed : Std.HashMap String (List Nat)
  unkeyed : List Nat

namespace Stacks

def empty : Stacks := ⟨∅, []⟩

/-- The stack of an identifier, or of the entries without one. -/
def stack (s : Stacks) : Option String → List Nat
  | some k => s.keyed.getD k []
  | none => s.unkeyed

def push (s : Stacks) (key : Option String) (i : Nat) : Stacks :=
  match key with
  | some k => { s with keyed := s.keyed.insert k (s.keyed.getD k [] ++ [i]) }
  | none => { s with unkeyed := s.unkeyed ++ [i] }

def reversed (s : Stacks) : Stacks :=
  ⟨s.keyed.map fun _ positions => positions.reverse, s.unkeyed.reverse⟩

/-- Takes a position from a stack, if it has one. -/
def pop (s : Stacks) (key : Option String) : Option Nat × Stacks :=
  match key with
  | some k =>
      match s.keyed[k]? with
      | some positions =>
          (positions.getLast?, { s with keyed := s.keyed.insert k positions.dropLast })
      | none => (none, s)
  | none => (s.unkeyed.getLast?, { s with unkeyed := s.unkeyed.dropLast })

end Stacks

/-! ### Matching -/

/-- The stacks of the old entries, which of these are used, and the pairs found so far. -/
structure Matching where
  free : Stacks
  used : List Bool
  pairs : List Pair

namespace Matching

/-- No old entry is used yet; the first one of each stack is on top. -/
def initial (olds : List (Option String)) : Matching where
  free := ((indexed olds).foldl (fun s p => s.push p.2 p.1) Stacks.empty).reversed
  used := List.replicate olds.length false
  pairs := []

/-- Pairs a new entry with the position on top of its stack.  There is no result if this position is
out of range, of the old entries as well as of their marks, which are as many. -/
def take? (m : Matching) (key : Option String) (j : Nat) : Option Matching :=
  match m.free.pop key with
  | (some i, rest) =>
      if i < m.used.length then some ⟨rest, m.used.set i true, m.pairs ++ [⟨some i, some j⟩]⟩
      else none
  | (none, rest) => some ⟨rest, m.used, m.pairs ++ [⟨none, some j⟩]⟩

/-- The pairs with the old entries added that are not used, out of the given number. -/
def finish? (m : Matching) (n : Nat) : Option (List Pair) :=
  (List.range n).foldlM (fun pairs i => (m.used[i]?).map fun used =>
    if used then pairs else pairs ++ [⟨some i, none⟩]) m.pairs

end Matching

/-- The pairs of old and new entries that have the given identifiers, found by means of stacks. -/
def pairByStacks? (olds news : List (Option String)) : Option (List Pair) :=
  ((indexed news).foldlM (fun m p => Matching.take? m p.2 p.1) (Matching.initial olds)).bind
    fun m => m.finish? olds.length

end CoachLedger.Audit
