/-
**Invocations.**

An invocation is what the arguments and the environment ask for: one of six commands, and the
overrides of the configuration.  The options of the configuration may stand before or after the
name of the command; what stands after it goes before what stands in front, and both go before the
environment.

Main definitions:

* `CoachLedger.CommandLine.Command` — the commands;
* `CoachLedger.CommandLine.Invocation` — a command with the overrides of the configuration;
* `CoachLedger.CommandLine.Invocation.read` — the invocation of arguments.
-/

import CoachLedger.CommandLine.Arguments
import CoachLedger.Config.Settings
import CoachLedger.Environment.Basic
import CoachLedger.Ledger.Workflow
import CoachLedger.Sql.Dialect

set_option autoImplicit false

namespace CoachLedger.CommandLine

/-- Where a filter comes from. -/
inductive FilterSource
  | none
  | inline (text : String)
  | file (path : String)
deriving DecidableEq, Repr

/-- A command. -/
inductive Command
  | compile (filter : FilterSource) (kind : RecordKind) (dialect : Sql.Dialect)
  | search (filter : FilterSource) (kind : RecordKind) (limit offset : Nat) (countOnly : Bool)
  | load (file : String) (kind : RecordKind)
  | update (workflow : Workflow) (value : String) (coaches : List String)
      (description : Option String)
  | diff (old new : String) (byIdentity : Bool)
  | audit (query : Audit.Log.Query)

/-- A command with the overrides of the configuration. -/
structure Invocation where
  command : Command
  overrides : Config.Overrides

/-! ### Values -/

/-- A value that has to be there and to be right. -/
def required {α : Type} (a : Option α) : Except Stop α :=
  match a with
  | some a => .ok a
  | none => .error .usage

/-- A number of digits, after an optional plus. -/
def readNatural? (s : String) : Option Nat :=
  let ds :=
    match s.toList with
    | '+' :: ds => ds
    | ds => ds
  if !ds.isEmpty && ds.all Char.isDigit then some (Decimal.ofDigits ds) else none

/-- The largest size. -/
def maxSize : Nat := 0xFFFFFFFFFFFFFFFF

/-- A size. -/
def readSize? (s : String) : Option Nat :=
  (readNatural? s).filter fun n => n ≤ maxSize

/-- The largest number of rows. -/
def maxRows : Nat := 0xFFFFFFFF

/-- A number of rows; a zero may be negated. -/
def readRows? (s : String) : Option Nat :=
  match s.toList with
  | '-' :: ds =>
      if !ds.isEmpty && ds.all Char.isDigit && Decimal.ofDigits ds == 0 then some 0 else none
  | _ => (readNatural? s).filter fun n => n ≤ maxRows

/-- A path, which must not be empty. -/
def readPath? (s : String) : Option String :=
  if s = "" then none else some s

/-! ### Options -/

/-- The texts that a reader of values accepts. -/
def readable {α : Type} (read : String → Option α) (s : String) : Bool := (read s).isSome

/-- An option that accepts every value. -/
def textOption (name : String) : Opt := ⟨name, none, some fun _ => true⟩

/-- An option that accepts what a reader of values reads. -/
def readOption {α : Type} (name : String) (read : String → Option α) : Opt :=
  ⟨name, none, some (readable read)⟩

/-- An option without a value. -/
def flagOption (name : String) : Opt := ⟨name, none, none⟩

/-- The option by a letter as well. -/
def Opt.orLetter (o : Opt) (c : Char) : Opt := { o with letter := some c }

/-- The options of the configuration. -/
def globalOptions : List Opt :=
  [flagOption "debug", (readOption "config" readPath?).orLetter 'c',
    readOption "database-path" readPath?, readOption "filter-max-json-bytes" readSize?,
    readOption "filter-max-conditions" readSize?, textOption "audit-identity-field",
    readOption "audit-notify" Value.readBoolean?, readOption "audit-notify-capacity" readSize?,
    textOption "actor"]

/-- The option that chooses the kind of records. -/
def kindOption : Opt := (readOption "kind" RecordKind.ofName?).orLetter 'k'

/-- The options that give a filter. -/
def filterOptions : List Opt :=
  [(textOption "filter").orLetter 'f', readOption "filter-file" readPath?, kindOption]

/-- The options that choose a page. -/
def pageOptions : List Opt := [readOption "limit" readRows?, readOption "offset" readRows?]

/-- What the commands take, by their names, besides the options of the configuration. -/
def commandForms : List (String × Form) :=
  [("compile", ⟨filterOptions ++ [readOption "dialect" Sql.Dialect.ofName?], [], false⟩),
    ("search", ⟨filterOptions ++ pageOptions ++ [flagOption "count"], [], false⟩),
    ("import", ⟨[kindOption], [readable readPath?], false⟩),
    ("update",
      ⟨[textOption "description"], [readable Workflow.ofName?, fun _ => true], true⟩),
    ("diff",
      ⟨[flagOption "by-identity"], [readable readPath?, readable readPath?], false⟩),
    ("audit", ⟨pageOptions ++ [textOption "entity", textOption "by"], [], false⟩)]

/-- The form of a command with the options of the configuration. -/
def formOf? (command : String) : Option Form :=
  (commandForms.lookup command).map fun f => { f with options := globalOptions ++ f.options }

/-- The name of the command that shows the usage. -/
def helpName : String := "help"

/-- How a request for the usage of a command ends: it may name one command. -/
def helpStop (words : List String) : Stop :=
  match words with
  | [] => .help
  | [name] => if name = helpName || (commandForms.lookup name).isSome then .help else .usage
  | _ => .usage

/-- The value of an option of a command, if it is given and right. -/
def optional {α : Type} (g : Given) (read : String → Option α) (name : String) :
    Except Stop (Option α) :=
  match g.value? name with
  | none => .ok none
  | some s => (required (read s)).map some

/-- The name of the environment variable of an option. -/
def variableOf (option : String) : String :=
  "COACHYARD_" ++ option.map fun c => if c = '-' then '_' else c.toUpper

/-- The value of an option of the configuration: from after the command, from before it, or from
the environment.  The environment is looked at, and has to be right, unless the option is given in
both places. -/
def global {α : Type} (before after : Given) (env : Environment) (read : String → Option α)
    (readVariable : String → Option α) (name : String) : Except Stop (Option α) := do
  let a ← optional after read name
  let b ← optional before read name
  if a.isSome && b.isSome then return a
  let e ←
    match env.lookup (variableOf name) with
    | none => pure none
    | some s => (required (readVariable s)).map some
  return (a.or b).or e

/-- The overrides of the configuration. -/
def readOverrides (before after : Given) (env : Environment) : Except Stop Config.Overrides := do
  let value {α : Type} (read : String → Option α) (name : String) : Except Stop (Option α) :=
    global before after env read read name
  let debug ← global before after env (fun _ => some true) Value.readBoolean? "debug"
  let config ← value readPath? "config"
  let databasePath ← value readPath? "database-path"
  let maxJsonBytes ← value readSize? "filter-max-json-bytes"
  let maxConditions ← value readSize? "filter-max-conditions"
  let identityField ← value some "audit-identity-field"
  let notify ← value Value.readBoolean? "audit-notify"
  let notifyCapacity ← value readSize? "audit-notify-capacity"
  let actor ← value some "actor"
  return ⟨config, ⟨databasePath, maxJsonBytes, maxConditions, identityField, notify,
    notifyCapacity, actor, debug.filter id⟩⟩

/-! ### Commands -/

/-- Where the filter of a command comes from; a text and a file exclude each other. -/
def readFilterSource (g : Given) : Except Stop FilterSource := do
  let file ← optional g readPath? "filter-file"
  match g.value? "filter", file with
  | some _, some _ => .error .usage
  | some text, none => return .inline text
  | none, some path => return .file path
  | none, none => return .none

/-- The kind of records of a command. -/
def readKind (g : Given) : Except Stop RecordKind := do
  return (← optional g RecordKind.ofName? "kind").getD .master

/-- The command of a name with its options and words. -/
def readCommand (name : String) (g : Given) : Except Stop Command := do
  match name, g.words with
  | "compile", [] =>
      let dialect ← optional g Sql.Dialect.ofName? "dialect"
      return .compile (← readFilterSource g) (← readKind g) (dialect.getD .sqlite)
  | "search", [] =>
      let limit ← optional g readRows? "limit"
      let offset ← optional g readRows? "offset"
      return .search (← readFilterSource g) (← readKind g) (limit.getD 100) (offset.getD 0)
        (g.value? "count").isSome
  | "import", [file] =>
      return .load (← required (readPath? file)) (← readKind g)
  | "update", workflow :: value :: coach :: coaches =>
      return .update (← required (Workflow.ofName? workflow)) value (coach :: coaches)
        (g.value? "description")
  | "diff", [old, new] =>
      return .diff (← required (readPath? old)) (← required (readPath? new))
        (g.value? "by-identity").isSome
  | "audit", [] =>
      let limit ← optional g readRows? "limit"
      let offset ← optional g readRows? "offset"
      return .audit ⟨limit.getD Audit.Log.defaultPage, offset.getD 0, g.value? "entity",
        g.value? "by"⟩
  | _, _ => .error .usage

/-- The invocation of arguments. -/
def Invocation.read (env : Environment) (args : List String) : Except Stop Invocation := do
  let front ← scanFront globalOptions .empty none args
  if front.command = helpName then .error (helpStop front.rest)
  let form ← required (formOf? front.command)
  let after ← scan form .empty front.rest
  let before ← front.settle
  let command ← readCommand front.command after
  let overrides ← readOverrides before after env
  return ⟨command, overrides⟩

end CoachLedger.CommandLine
