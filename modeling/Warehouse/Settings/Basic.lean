/-
Module: Warehouse.Settings.Basic
Purpose: The settings of a project: where its catalog is, what it is loaded into, and how runs go
  about it. They are read from a TOML document, in which everything may be left out.
Trusted boundary: none
Main exports: Settings, SettingsError, Settings.ofToml, Settings.catalogPath, Settings.toJson
-/
import Warehouse.Drift.Plan
import Warehouse.Run.Execution
import Warehouse.Settings.Variables
import Warehouse.Toml.Document

namespace Warehouse

open Sql (Dialect)

/-- Where the log of runs is kept. -/
structure LogSettings where
  enabled : Bool := true
  schema : String := "meta"
  table : String := "load_run_log"
deriving DecidableEq, Repr

/-- The settings of a project. -/
structure Settings where
  profile : String := "dev"
  targetSystem : String := "warehouse"
  dialect : Dialect := .duckdb
  /-- The path of the catalog, which may refer to variables of the environment. -/
  catalog? : Option String := none
  execution : RunPolicy := {}
  drift : DriftPolicy := {}
  log : LogSettings := {}
deriving DecidableEq, Repr

/-- Why there are no settings, or no catalog path. -/
inductive SettingsError where
  | fileNotFound (path : String)
  | unreadable (report : String)
  | notToml
  | emptyProfile
  | unnamedLogTable
  | missingVariable (cause : MissingVariable)
deriving DecidableEq, Repr

def SettingsError.message : SettingsError → String
  | fileNotFound path => "Config file not found: " ++ path
  | unreadable report => "Failed to read config file: " ++ report
  | notToml => "Failed to parse config file"
  | emptyProfile => "Invalid configuration: profile must not be empty"
  | unnamedLogTable =>
    "Invalid configuration: run_log.schema and run_log.table are required when the run log is enabled"
  | missingVariable cause => "Missing environment variable: " ++ cause.name

/-! ### Reading -/

namespace Toml

/-- The fields of a record, which is written as a table, or as the list of its fields' values. What
a table has besides them has to be readable; what a list has is left alone. A moment counts as a
table with a name that no record knows. -/
def fields? (names : List String) : Toml → Option (String → Option Toml)
  | .table entries =>
    if entries.all fun (name, v) => names.contains name || v.isReadable then
      some fun name => entries.lookup name
    else none
  | .array items => some fun name => (names.zip items).lookup name
  | .moment _ => some fun _ => none
  | _ => none

/-- A field, or `missing` if it is not there. -/
def field {α : Type} (fields : String → Option Toml) (name : String) (missing : α)
    (read : Toml → Option α) : Option α :=
  match fields name with
  | none => some missing
  | some v => read v

/-- A string. -/
def string? : Toml → Option String
  | .string s => some s
  | _ => none

/-- A truth value. -/
def bool? : Toml → Option Bool
  | .bool b => some b
  | _ => none

/-- A whole number of 32 bits. -/
def uint32? : Toml → Option UInt32
  | .integer n => if 0 ≤ n ∧ n < UInt32.size then some (UInt32.ofNat n.toNat) else none
  | _ => none

/-- One of several names, given as a string, or as the only key of a table whose value is empty. -/
def name? {α : Type} (read : String → Option α) : Toml → Option α
  | .string s => read s
  | .table [(key, .table [])] => read key
  | .table [(key, .array [])] => read key
  | _ => none

end Toml

/-- Reads a dialect by its own name. -/
def dialectOfToml? : Toml → Option Dialect :=
  Toml.name? fun s => Dialect.all.find? fun d => d.name = s

/-- Reads how runs go. -/
def RunPolicy.ofToml? (t : Toml) : Option RunPolicy := do
  let usual : RunPolicy := {}
  let fields ← t.fields? ["execute", "continue_on_error", "max_retries"]
  let execute ← Toml.field fields "execute" usual.execute Toml.bool?
  let continueOnError ← Toml.field fields "continue_on_error" usual.continueOnError Toml.bool?
  let maxRetries ← Toml.field fields "max_retries" usual.maxRetries Toml.uint32?
  return { execute, continueOnError, maxRetries }

/-- Reads what may be changed in the database. -/
def DriftPolicy.ofToml? (t : Toml) : Option DriftPolicy := do
  let usual : DriftPolicy := {}
  let fields ← t.fields? ["allow_alter_column_type", "ensure_schema"]
  let allowAlterColumnType ←
    Toml.field fields "allow_alter_column_type" usual.allowAlterColumnType Toml.bool?
  let ensureSchema ← Toml.field fields "ensure_schema" usual.ensureSchema Toml.bool?
  return { allowAlterColumnType, ensureSchema }

/-- Reads where the log is kept. -/
def LogSettings.ofToml? (t : Toml) : Option LogSettings := do
  let usual : LogSettings := {}
  let fields ← t.fields? ["enabled", "schema", "table"]
  let enabled ← Toml.field fields "enabled" usual.enabled Toml.bool?
  let schema ← Toml.field fields "schema" usual.schema Toml.string?
  let table ← Toml.field fields "table" usual.table Toml.string?
  return { enabled, schema, table }

namespace Settings

/-- Reads settings that need not make sense. -/
def ofToml? (t : Toml) : Option Settings := do
  let usual : Settings := {}
  let fields ← t.fields?
    ["profile", "target_system", "dialect", "catalog", "execution", "materialization", "run_log"]
  let profile ← Toml.field fields "profile" usual.profile Toml.string?
  let targetSystem ← Toml.field fields "target_system" usual.targetSystem Toml.string?
  let dialect ← Toml.field fields "dialect" usual.dialect dialectOfToml?
  let catalog? ← Toml.field fields "catalog" usual.catalog? fun v => v.string?.map some
  let execution ← Toml.field fields "execution" usual.execution RunPolicy.ofToml?
  let drift ← Toml.field fields "materialization" usual.drift DriftPolicy.ofToml?
  let log ← Toml.field fields "run_log" usual.log LogSettings.ofToml?
  return { profile, targetSystem, dialect, catalog?, execution, drift, log }

/-- What is wrong with settings: the profile has to have a name, and so has the table of a log that
is kept. -/
def fault? (s : Settings) : Option SettingsError :=
  if (Text.strip s.profile).isEmpty then some .emptyProfile
  else if s.log.enabled && (s.log.schema.isEmpty || s.log.table.isEmpty) then some .unnamedLogTable
  else none

/-- The settings that a document describes. -/
def ofToml (text : String) : Except SettingsError Settings :=
  match (Toml.parse? text).bind ofToml? with
  | none => .error .notToml
  | some s =>
    match s.fault? with
    | some e => .error e
    | none => .ok s

/-- Where the catalog is, if the settings say so. -/
def catalogPath (s : Settings) (env : Environment) : Except SettingsError (Option String) :=
  match s.catalog? with
  | none => .ok none
  | some path => ((expandVariables env path).map some).mapError .missingVariable

/-! ### Writing -/

def toJson (s : Settings) : Json := .object [
  ("profile", .string s.profile),
  ("target_system", .string s.targetSystem),
  ("dialect", .string s.dialect.name),
  ("catalog", Json.ofOption s.catalog?),
  ("execution", .object [
    ("execute", .bool s.execution.execute),
    ("continue_on_error", .bool s.execution.continueOnError),
    ("max_retries", idToJson s.execution.maxRetries)]),
  ("materialization", .object [
    ("allow_alter_column_type", .bool s.drift.allowAlterColumnType),
    ("ensure_schema", .bool s.drift.ensureSchema)]),
  ("run_log", .object [
    ("enabled", .bool s.log.enabled),
    ("schema", .string s.log.schema),
    ("table", .string s.log.table)])]

end Settings

end Warehouse
