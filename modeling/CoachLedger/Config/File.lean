/-
**Configuration files.**

A configuration file has up to three sections, each an object, or an array of all its values in
order; keys that are not known are ignored, and a known key may stand only once.  The ignored keys
of the top level still have to make up a JSON object.

A file is merged into another one value by value.  A section does not take the place of the one
that is there, and a value that is not set changes nothing.

Main definitions:

* `CoachLedger.Config.FileConfig` — what a configuration file says;
* `CoachLedger.Config.FileConfig.merge` — a file with another one merged into it;
* `CoachLedger.Config.FileConfig.layer` — what a file sets, its sections apart;
* `CoachLedger.Config.FileConfig.read?` — what the text of a file says.
-/

import CoachLedger.Config.Layer
import CoachLedger.Json.Reader

set_option autoImplicit false

namespace CoachLedger.Config

/-! ### Sections -/

/-- Where the store is kept. -/
structure DatabaseSection where
  path : Option String
deriving DecidableEq, Repr

/-- The limits on filters. -/
structure FiltersSection where
  maxJsonBytes : Option Nat
  maxConditions : Option Nat
deriving DecidableEq, Repr

/-- How changes are recorded. -/
structure AuditSection where
  identityField : Option String
  notify : Option Bool
  notifyCapacity : Option Nat
  actor : Option String
deriving DecidableEq, Repr

/-- What a configuration file says. -/
structure FileConfig where
  database : Option DatabaseSection
  filters : Option FiltersSection
  audit : Option AuditSection
  debug : Option Bool
deriving DecidableEq, Repr

/-- A database section without values. -/
def DatabaseSection.empty : DatabaseSection := ⟨none⟩

/-- A filters section without values. -/
def FiltersSection.empty : FiltersSection := ⟨none, none⟩

/-- An audit section without values. -/
def AuditSection.empty : AuditSection := ⟨none, none, none, none⟩

/-! ### Merging -/

/-- The newer of two values, if it is set. -/
def newer {α : Type} (new old : Option α) : Option α :=
  if new.isSome then new else old

/-- A database section with another one merged into it. -/
def DatabaseSection.merge (current other : DatabaseSection) : DatabaseSection :=
  ⟨newer other.path current.path⟩

/-- A filters section with another one merged into it. -/
def FiltersSection.merge (current other : FiltersSection) : FiltersSection :=
  ⟨newer other.maxJsonBytes current.maxJsonBytes,
    newer other.maxConditions current.maxConditions⟩

/-- An audit section with another one merged into it. -/
def AuditSection.merge (current other : AuditSection) : AuditSection :=
  ⟨newer other.identityField current.identityField, newer other.notify current.notify,
    newer other.notifyCapacity current.notifyCapacity, newer other.actor current.actor⟩

/-- A section that may be missing with another one merged into it. -/
def mergeSection {α : Type} (empty : α) (merge : α → α → α) (current other : Option α) :
    Option α :=
  match other with
  | none => current
  | some other => some (merge (current.getD empty) other)

namespace FileConfig

/-- A file that says nothing. -/
def empty : FileConfig := ⟨none, none, none, none⟩

/-- A file with another one merged into it, which goes before it. -/
def merge (self other : FileConfig) : FileConfig :=
  ⟨mergeSection .empty .merge self.database other.database,
    mergeSection .empty .merge self.filters other.filters,
    mergeSection .empty .merge self.audit other.audit, newer other.debug self.debug⟩

/-- What a file sets, its sections apart. -/
def layer (c : FileConfig) : Layer :=
  let database := c.database.getD .empty
  let filters := c.filters.getD .empty
  let audit := c.audit.getD .empty
  ⟨database.path, filters.maxJsonBytes, filters.maxConditions, audit.identityField, audit.notify,
    audit.notifyCapacity, audit.actor, c.debug⟩

end FileConfig

/-! ### Reading -/

/-- Null, or a text. -/
def readText? : Json.Tree → Option (Option String)
  | .null => some none
  | .string (some s) => some (some s)
  | _ => none

/-- Null, or a boolean. -/
def readFlag? : Json.Tree → Option (Option Bool)
  | .null => some none
  | .bool b => some (some b)
  | _ => none

/-- Null, or a natural number written as an integer. -/
def readSize? : Json.Tree → Option (Option Nat)
  | .null => some none
  | .number (some (.integer i)) => if 0 ≤ i then some (some i.toNat) else none
  | _ => none

/-- The trees of the known members of an object, by name; a repeated one is a fault. -/
def knownMembers? (names : List String) (found : List (String × Json.Tree)) :
    List (Option String × Json.Tree) → Option (List (String × Json.Tree))
  | [] => some found
  | (none, _) :: _ => none
  | (some name, t) :: rest =>
      if names.contains name then
        if (found.lookup name).isSome then none
        else knownMembers? names ((name, t) :: found) rest
      else knownMembers? names found rest

/-- The value of a key, null if the key is missing. -/
def valueOf (members : List (String × Json.Tree)) (name : String) : Json.Tree :=
  (members.lookup name).getD .null

/-- A section whose keys have the given names, null being no section. -/
def readSection? {α : Type} (names : List String)
    (read? : List (String × Json.Tree) → Option α) : Json.Tree → Option (Option α)
  | .null => some none
  | .object members => ((knownMembers? names [] members).bind read?).map some
  | .array items =>
      if items.length = names.length then (read? (names.zip items)).map some else none
  | _ => none

namespace DatabaseSection

/-- The keys of the section. -/
def names : List String := ["path"]

/-- The section of its members. -/
def ofMembers? (members : List (String × Json.Tree)) : Option DatabaseSection := do
  let path ← readText? (valueOf members "path")
  some ⟨path⟩

end DatabaseSection

namespace FiltersSection

/-- The keys of the section. -/
def names : List String := ["max_json_bytes", "max_conditions"]

/-- The section of its members. -/
def ofMembers? (members : List (String × Json.Tree)) : Option FiltersSection := do
  let maxJsonBytes ← readSize? (valueOf members "max_json_bytes")
  let maxConditions ← readSize? (valueOf members "max_conditions")
  some ⟨maxJsonBytes, maxConditions⟩

end FiltersSection

namespace AuditSection

/-- The keys of the section. -/
def names : List String := ["identity_field", "notify", "notify_capacity", "actor"]

/-- The section of its members. -/
def ofMembers? (members : List (String × Json.Tree)) : Option AuditSection := do
  let identityField ← readText? (valueOf members "identity_field")
  let notify ← readFlag? (valueOf members "notify")
  let notifyCapacity ← readSize? (valueOf members "notify_capacity")
  let actor ← readText? (valueOf members "actor")
  some ⟨identityField, notify, notifyCapacity, actor⟩

end AuditSection

/-- The sections and the key of the top level. -/
def topNames : List String := ["database", "filters", "audit", "debug"]

/-- The members of the top level that are not known. -/
def unknownMembers (members : List (Option String × Json.Tree)) :
    List (Option String × Json.Tree) :=
  members.filter fun m => !m.1.any topNames.contains

/-- The unknown members of the top level make up a JSON object.  If the first of them embeds a
text, then the others need no values, but they have to be whole. -/
def formObject (unknown : List (Option String × Json.Tree)) : Bool :=
  let depth := Json.maxDepth - 1
  if Json.Tree.isEmbedding unknown then
    Json.Tree.membersAreWhole depth unknown &&
      ((Json.Tree.embeddedText? (unknown.take 1)).bind Json.read?).isSome
  else (Json.Tree.members? Json.read? depth [] unknown).isSome

namespace FileConfig

/-- What the members of the top level say. -/
def ofMembers? (members : List (Option String × Json.Tree)) : Option FileConfig := do
  let top ← knownMembers? topNames [] members
  guard (formObject (unknownMembers members))
  let database ←
    readSection? DatabaseSection.names DatabaseSection.ofMembers? (valueOf top "database")
  let filters ← readSection? FiltersSection.names FiltersSection.ofMembers? (valueOf top "filters")
  let audit ← readSection? AuditSection.names AuditSection.ofMembers? (valueOf top "audit")
  let debug ← readFlag? (valueOf top "debug")
  some ⟨database, filters, audit, debug⟩

/-- What the text of a file says, which has to be a JSON object. -/
def read? (text : String) : Option FileConfig :=
  let o := Json.outline text
  match o.root with
  | .object members => if o.complete then ofMembers? members else none
  | _ => none

end FileConfig

end CoachLedger.Config
