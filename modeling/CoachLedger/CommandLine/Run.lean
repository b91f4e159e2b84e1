/-
**Running commands.**

A command prints one JSON value or fails with one message.  Compiling a filter and comparing two
files need no store; the other commands open the store of the settings, and what they write is
kept only if they succeed.

Main definitions:

* `CoachLedger.CommandLine.Result` — how a run ends;
* `CoachLedger.CommandLine.execute` — carries out a command;
* `CoachLedger.CommandLine.run` — runs the program.
-/

import CoachLedger.CommandLine.Invocation
import CoachLedger.Environment.File
import CoachLedger.Filter.Compile
import CoachLedger.Ledger.Import
import CoachLedger.Ledger.Session
import CoachLedger.Sql.Condition

set_option autoImplicit false

namespace CoachLedger.CommandLine

/-- How a run ends. -/
inductive Result
  /-- A value is printed. -/
  | printed (j : Json)
  /-- A text is printed. -/
  | raw (s : String)
  | failed (message : String)
  /-- The arguments do not fit the usage. -/
  | usage

/-- What `--version` prints. -/
def versionText : String := "coachyard 1.0.0\n"

/-- What `--help` prints. -/
def helpText : String :=
  "Usage: coachyard [OPTIONS] <compile|search|import|update|diff|audit>\n"

/-- What comes before the message of a failure. -/
def failureLead : String := "Error: "

/-- The engine's own message is not known. -/
def storeMessage (f : Store.Failure) : String :=
  f.message?.getD "Database error"

/-! ### Files -/

/-- The text of a filter. -/
def filterText {m : Type → Type} [Monad m] (host : Host m) :
    FilterSource → m (Except String String)
  | .none => return .ok ""
  | .inline text => return .ok text
  | .file path => do
      match ← host.read path with
      | .text s => return .ok s
      | _ => return .error ("Failed to read filter file: " ++ path)

/-- The JSON value in a file. -/
def readJsonFile {m : Type → Type} [Monad m] (host : Host m) (path : String) :
    m (Except String Json) := do
  match ← host.read path with
  | .text s =>
      match Json.read? s with
      | some j => return .ok j
      | none => return .error ("Failed to parse JSON: " ++ path)
  | _ => return .error ("Failed to read file: " ++ path)

/-! ### Commands without a store -/

/-- A compiled filter with its SQL. -/
def compiledJson (kind : RecordKind) (dialect : Sql.Dialect) (f : Filter.Compiled) : Json :=
  let (sql, params) := (Sql.Condition.ofPredicate f.predicate).render dialect id []
  .object
    [("kind", .string kind.name), ("dialect", .string dialect.name),
      ("predicate", .string f.predicate.display),
      ("connectives", .array (f.connectives.map fun c => .string c.name)),
      ("group", Json.ofOption (f.group?.map Filter.Connective.name)), ("sql", .string sql),
      ("params", .array (params.map Value.toJson))]

/-- Compiles a filter text. -/
def compileText (settings : Config.Settings) (kind : RecordKind) (dialect : Sql.Dialect)
    (text : String) : Result :=
  match Filter.parse kind settings.limits text with
  | .ok conditions => .printed (compiledJson kind dialect (Filter.compileFor kind conditions))
  | .error r => .failed (r.message?.getD "Invalid filter JSON")

/-- The options by which a command describes changes. -/
def auditOptions (settings : Config.Settings) (byIdentity : Bool) : Audit.Options :=
  ⟨settings.identityField, if byIdentity then .byIdentity else .positional⟩

/-- The change between two values. -/
def changeJson (c : Option Audit.Change) : Json :=
  .object
    [("old_diff", (c.map Audit.Change.old).getD .null),
      ("new_diff", (c.map Audit.Change.new).getD .null)]

/-! ### Commands on a store -/

/-- An audit row. -/
def rowJson (r : Audit.Row) : Json :=
  .object
    [("id", .ofNat r.id), ("actor", .string r.entry.actor), ("action", .string r.entry.action),
      ("entity_name", .string r.entry.entityName), ("entity_id", Json.ofOption r.entry.entityId),
      ("description", Json.ofOption r.entry.description),
      ("old_values", r.oldValues.getD .null), ("new_values", r.newValues.getD .null)]

/-- Searches a store. -/
def searchStore (settings : Config.Settings) (session : Session) (kind : RecordKind)
    (text : String) (limit offset : Nat) (countOnly : Bool) : Result :=
  let p := (Filter.compileLenient kind settings.limits text).predicate
  if countOnly then
    match session.count kind p with
    | .ok n => .printed (.object [("kind", .string kind.name), ("count", .ofNat n)])
    | .error f => .failed (storeMessage f)
  else
    match session.search kind p limit offset with
    | .ok rs => .printed (Record.listToJson rs)
    | .error f => .failed (storeMessage f)

/-- Imports the records of a JSON value: the result, and the store if it has changed. -/
def importJson (settings : Config.Settings) (session : Session) (kind : RecordKind)
    (file : String) (j : Json) : Result × Option Store :=
  match j with
  | .array items =>
      match Ledger.readRecords kind 0 items with
      | .error i => (.failed ("Invalid record at index " ++ toString i), none)
      | .ok records =>
          let done := session.ledger?.bind fun l =>
            l.importAll ⟨kind, records, settings.actor, file⟩
          match done with
          | .error f => (.failed (storeMessage f), none)
          | .ok ((written, row), ledger) =>
              (.printed (.object
                [("kind", .string kind.name), ("written", .ofNat written),
                  ("audit_id", .ofNat row.id)]), some ledger.store)
  | _ => (.failed ("Expected a JSON array of records: " ++ file), none)

/-- Runs a workflow: the result, and the store if it has changed. -/
def updateCoaches (session : Session) (q : Workflow.Request) : Result × Option Store :=
  match session.run q with
  | .error f => (.failed (f.message?.getD "Database error"), none)
  | .ok (outcome, session) =>
      (.printed (.object
        [("workflow", .string q.workflow.name), ("field", .string q.workflow.field),
          ("updated", .ofNat outcome.updated),
          ("missing", .array (outcome.missing.map .string)),
          ("audit_id", .ofNat outcome.audit.id)]), some session.ledger.store)

/-- Lists a page of the audit log. -/
def listAudit (session : Session) (query : Audit.Log.Query) : Result :=
  match session.ledger?.bind fun l => l.store.listLog query with
  | .ok rows => .printed (.array (rows.map rowJson))
  | .error f => .failed (storeMessage f)

/-- Carries out a command on a store: the result, and the store if it has changed. -/
def executeOn {m : Type → Type} [Monad m] (host : Host m) (settings : Config.Settings)
    (session : Session) (command : Command) : m (Result × Option Store) := do
  match command with
  | .search source kind limit offset countOnly =>
      match ← filterText host source with
      | .ok text => return (searchStore settings session kind text limit offset countOnly, none)
      | .error e => return (.failed e, none)
  | .load file kind =>
      match ← readJsonFile host file with
      | .ok j => return importJson settings session kind file j
      | .error e => return (.failed e, none)
  | .update workflow value coaches description =>
      return updateCoaches session ⟨workflow, coaches, value, settings.actor, description⟩
  | .audit query => return (listAudit session query, none)
  | _ => return (.failed "Command does not use the database", none)

/-- The session on a store that was opened.  If each connection has a store of its own, the one
that carries out commands finds nothing to work on. -/
def sessionOn (settings : Config.Settings) (l : Locator) (store : Store) : Session :=
  ⟨⟨store, auditOptions settings false, none⟩, !l.isPrivate⟩

/-- Carries out a command. -/
def execute {m : Type → Type} [Monad m] (host : Host m) (settings : Config.Settings)
    (command : Command) : m Result := do
  match command with
  | .compile source kind dialect =>
      match ← filterText host source with
      | .ok text => return compileText settings kind dialect text
      | .error e => return .failed e
  | .diff old new byIdentity =>
      match ← readJsonFile host old with
      | .error e => return .failed e
      | .ok a =>
          match ← readJsonFile host new with
          | .error e => return .failed e
          | .ok b =>
              return .printed (changeJson (Audit.change? (auditOptions settings byIdentity) a b))
  | command =>
      let path := settings.databasePath
      match ← host.openStore path with
      | none => return .failed ("Failed to open database: " ++ path)
      | some (locator, store) =>
          match ← executeOn host settings (sessionOn settings locator store) command with
          | (result, none) => return result
          | (result, some store) =>
              if ← host.keepStore locator store then return result
              else return .failed (storeMessage .engine)

/-- The file with environment variables in the current directory. -/
def environmentFile : String := ".env"

/-- The places that environment variables choose: a home directory, and a data directory if its
path is absolute. -/
def chosenPlaces (env : Environment) (places : Places) : Places :=
  let home := ((env.lookup "HOME").filter fun s => s != "").getD places.home
  let data := ((env.lookup "XDG_DATA_HOME").filter Path.isAbsolute).getD (dataDirectory home)
  { places with home := home, data := data }

/-- Runs the program. -/
def run {m : Type → Type} [Monad m] (host : Host m) (env : Environment) (args : List String) :
    m Result := do
  let env :=
    match ← host.read environmentFile with
    | .text s => env.withFile s
    | _ => env
  match Invocation.read env args with
  | .error .usage => return .usage
  | .error .version => return .raw versionText
  | .error .help => return .raw helpText
  | .ok invocation =>
      let host := { host with places := chosenPlaces env host.places }
      match ← Config.load host invocation.overrides with
      | .error e => return .failed e.message
      | .ok settings => execute host settings invocation.command

end CoachLedger.CommandLine
