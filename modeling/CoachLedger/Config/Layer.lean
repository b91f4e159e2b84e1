/-
**Configuration layers.**

A layer of the configuration sets some of the settings and leaves the others to the layers below
it.  The command line is a layer, and so is what a configuration file says, whatever sections it
has.

Main definitions:

* `CoachLedger.Config.Layer` — layers;
* `CoachLedger.Config.Layer.onto` — a layer on top of another one.
-/

set_option autoImplicit false

namespace CoachLedger.Config

/-- A layer of the configuration. -/
structure Layer where
  databasePath : Option String
  maxJsonBytes : Option Nat
  maxConditions : Option Nat
  identityField : Option String
  notify : Option Bool
  notifyCapacity : Option Nat
  actor : Option String
  debug : Option Bool
deriving DecidableEq, Repr

namespace Layer

/-- The layer that sets nothing. -/
def empty : Layer := ⟨none, none, none, none, none, none, none, none⟩

/-- A layer on top of another one. -/
def onto (top bottom : Layer) : Layer :=
  ⟨top.databasePath.or bottom.databasePath, top.maxJsonBytes.or bottom.maxJsonBytes,
    top.maxConditions.or bottom.maxConditions, top.identityField.or bottom.identityField,
    top.notify.or bottom.notify, top.notifyCapacity.or bottom.notifyCapacity,
    top.actor.or bottom.actor, top.debug.or bottom.debug⟩

end Layer

end CoachLedger.Config
