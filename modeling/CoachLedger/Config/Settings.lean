/-
**Settings.**

The settings of a run come from four places: the command line goes before a configuration file in
the current directory or one that the command line names, this goes before the file in the profile
directory, and last come the standard settings.

Main definitions:

* `CoachLedger.Config.Settings` — settings;
* `CoachLedger.Config.Settings.ofLayers` — the settings of the files and the command line;
* `CoachLedger.Config.Settings.problem?` — what is wrong with settings;
* `CoachLedger.Config.load` — the settings of a run.

Main results:

* `CoachLedger.Config.problem?_eq_none_iff` — when there is nothing wrong with settings.
-/

import CoachLedger.Audit.Alignment
import CoachLedger.Config.File
import CoachLedger.Filter.Boundary
import CoachLedger.Host.Basic

set_option autoImplicit false

namespace CoachLedger.Config

/-- The settings of a run. -/
structure Settings where
  databasePath : String
  limits : Filter.Limits
  identityField : String
  notify : Bool
  notifyCapacity : Nat
  actor : String
  debug : Bool
deriving DecidableEq, Repr

/-- What the command line and the environment say about the configuration. -/
structure Overrides where
  /-- The configuration file to use. -/
  config : Option String
  layer : Layer
deriving DecidableEq, Repr

/-! ### Standard settings -/

/-- The number of notifications that are kept for slow subscribers. -/
def defaultNotifyCapacity : Nat := 1024

/-- Who acts if nobody is named. -/
def defaultActor : String := "system"

/-- The name of configuration files. -/
def fileName : String := "coachyard.json"

/-- The configuration file in the profile directory. -/
def profilePath (places : Places) : String :=
  Path.join (Path.join places.home ".coachyard") fileName

/-- Where the store is kept. -/
def defaultDatabasePath (places : Places) : String :=
  Path.join (Path.join places.data "Coachyard") "coachyard.db"

/-- The settings of the merged files and of the command line.  A path from a file is expanded, one
from the command line is taken as it is.  A file cannot turn off what the command line turns on. -/
def Settings.ofLayers (places : Places) (files : FileConfig) (cli : Layer) : Settings :=
  let database := files.database.getD .empty
  let filters := files.filters.getD .empty
  let audit := files.audit.getD .empty
  { databasePath :=
      (cli.databasePath.or (database.path.map places.expand)).getD (defaultDatabasePath places)
    limits :=
      ⟨(cli.maxJsonBytes.or filters.maxJsonBytes).getD Filter.Limits.standard.maxJsonBytes,
        (cli.maxConditions.or filters.maxConditions).getD Filter.Limits.standard.maxConditions⟩
    identityField := (cli.identityField.or audit.identityField).getD CoachLedger.identityField
    notify := (cli.notify.or audit.notify).getD true
    notifyCapacity := (cli.notifyCapacity.or audit.notifyCapacity).getD defaultNotifyCapacity
    actor := (cli.actor.or audit.actor).getD defaultActor
    debug := cli.debug.getD false || files.debug.getD false }

/-! ### Problems -/

/-- What can be wrong with settings. -/
inductive Problem
  | noDatabasePath
  | zeroJsonBytes
  | zeroConditions
  | blankIdentityField
  | zeroNotifyCapacity
  | blankActor
deriving DecidableEq, Repr

/-- A problem in words. -/
def Problem.text : Problem → String
  | noDatabasePath => "database.path must not be empty"
  | zeroJsonBytes => "filters.max_json_bytes must be greater than 0"
  | zeroConditions => "filters.max_conditions must be greater than 0"
  | blankIdentityField => "audit.identity_field must not be empty"
  | zeroNotifyCapacity =>
      "audit.notify_capacity must be greater than 0 when notifications are enabled"
  | blankActor => "audit.actor must not be empty"

/-- The first thing that is wrong with settings. -/
def Settings.problem? (s : Settings) : Option Problem :=
  if s.databasePath = "" then some .noDatabasePath
  else if s.limits.maxJsonBytes = 0 then some .zeroJsonBytes
  else if s.limits.maxConditions = 0 then some .zeroConditions
  else if Text.isAllBlank s.identityField then some .blankIdentityField
  else if s.notify ∧ s.notifyCapacity = 0 then some .zeroNotifyCapacity
  else if Text.isAllBlank s.actor then some .blankActor
  else none

/-- When there is nothing wrong with settings. -/
theorem problem?_eq_none_iff (s : Settings) :
    s.problem? = none ↔
      s.databasePath ≠ "" ∧ s.limits.maxJsonBytes ≠ 0 ∧ s.limits.maxConditions ≠ 0 ∧
        Text.isAllBlank s.identityField = false ∧ ¬(s.notify ∧ s.notifyCapacity = 0) ∧
          Text.isAllBlank s.actor = false := by
  unfold Settings.problem?
  repeat' split
  all_goals simp_all

/-- Why there are no settings. -/
inductive Failure
  | notFound (path : String)
  | unreadable (path : String)
  | malformed (path : String)
  | invalid (problem : Problem)
deriving DecidableEq, Repr

/-- The message of a failure. -/
def Failure.message : Failure → String
  | notFound path => "Config file not found: " ++ path
  | unreadable path => "Failed to read config file: " ++ path
  | malformed path => "Failed to parse config file: " ++ path
  | invalid problem => "Configuration error: " ++ problem.text

/-! ### Loading -/

/-- What a file says that has been read; an absent file says nothing. -/
def fileOf (path : String) : FileState → Except Failure FileConfig
  | .absent => .ok .empty
  | .unreadable => .error (.unreadable path)
  | .text s =>
      match FileConfig.read? s with
      | some file => .ok file
      | none => .error (.malformed path)

/-- What the file says that goes before the profile: the one that the command line names, which has
to exist, or the one in the current directory. -/
def overlay {m : Type → Type} [Monad m] (host : Host m) (cli : Overrides) :
    m (Except Failure FileConfig) :=
  match cli.config with
  | some written => do
      let path := host.places.expand written
      match ← host.read path with
      | .absent => return .error (.notFound path)
      | state => return fileOf path state
  | none => do return fileOf fileName (← host.read fileName)

/-- The settings of the files and the command line, if nothing is wrong with them. -/
def settle (places : Places) (files : FileConfig) (cli : Layer) : Except Failure Settings :=
  let s := Settings.ofLayers places files cli
  match s.problem? with
  | some p => .error (.invalid p)
  | none => .ok s

/-- The settings of a run. -/
def load {m : Type → Type} [Monad m] (host : Host m) (cli : Overrides) :
    m (Except Failure Settings) := do
  let path := profilePath host.places
  match fileOf path (← host.read path) with
  | .error e => return .error e
  | .ok profile =>
      match ← overlay host cli with
      | .error e => return .error e
      | .ok top => return settle host.places ((FileConfig.empty.merge profile).merge top) cli.layer

end CoachLedger.Config
