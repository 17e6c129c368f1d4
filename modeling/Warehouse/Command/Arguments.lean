/-
Module: Warehouse.Command.Arguments
Purpose: The command line: options, which may stand anywhere, and the words between them, the first
  of which names a command.
Trusted boundary: none
Main exports: Invocation, Action, RunFiles, Invocation.parse?
-/
import Warehouse.Sql.Dialect

namespace Warehouse.Command

open Sql (Dialect)

/-- Where a run reads the state of the database, and where it puts what it makes. -/
structure RunFiles where
  live? : Option String
  sqlDir? : Option String
  snapshot? : Option String
  log? : Option String
deriving DecidableEq, Repr

/-- What is asked for. -/
inductive Action where
  | compile (dataset : String) (resolve : Bool) (cutoff? : Option String)
  | materialize (dataset : String) (live? : Option String)
  | plan (roots : List String)
  | run (roots : List String) (cutoff? : Option String) (files : RunFiles)
  | manifest
  | diff (before after : String)
deriving DecidableEq, Repr

/-- A command with the options that all commands have. -/
structure Invocation where
  config? : Option String
  catalog? : Option String
  dialect? : Option Dialect
  action : Action
deriving DecidableEq, Repr

/-! ### Options and words -/

/-- What is given on a command line. An option without a value has the empty text. -/
structure Given where
  options : List (String × String)
  words : List String
deriving DecidableEq, Repr

namespace Given

/-- With an option in front. -/
def withOption (g : Given) (name value : String) : Given :=
  { g with options := (name, value) :: g.options }

/-- With a word in front. -/
def withWord (g : Given) (word : String) : Given := { g with words := word :: g.words }

/-- The value of an option. -/
def value? (g : Given) (name : String) : Option String := g.options.lookup name

/-- Whether an option is given. -/
def has (g : Given) (name : String) : Bool := (g.value? name).isSome

end Given

/-- The options that stand alone. -/
def plainOptions : List String := ["verbose", "resolve"]

/-- The options that take a value. -/
def valuedOptions : List String :=
  ["config", "catalog", "dialect", "cutoff", "live", "sql-dir", "snapshot", "run-log"]

/-- What one argument is. -/
inductive Shape where
  | word
  | plain (name : String)
  | valued (name value : String)
  | awaiting (name : String)
  /-- All that follows are words. -/
  | divider
deriving DecidableEq, Repr

/-- What a long option is: its name, and its value if an equals sign follows. -/
def longShape? (s : List Char) : Option Shape :=
  let name := String.ofList (s.takeWhile (· ≠ '='))
  match s.dropWhile (· ≠ '=') with
  | _ :: value =>
    if valuedOptions.contains name then some (.valued name (String.ofList value)) else none
  | [] =>
    if plainOptions.contains name then some (.plain name)
    else if valuedOptions.contains name then some (.awaiting name)
    else none

/-- What an argument is, unless it is an option that there is not. -/
def shape? (argument : String) : Option Shape :=
  match argument.toList with
  | ['-', '-'] => some .divider
  | '-' :: '-' :: name => longShape? name
  | ['-', 'd'] => some (.awaiting "dialect")
  | '-' :: 'd' :: '=' :: value => some (.valued "dialect" (String.ofList value))
  | '-' :: 'd' :: value => some (.valued "dialect" (String.ofList value))
  | '-' :: 'v' :: more => if more.all (· = 'v') then some (.plain "verbose") else none
  | _ => some .word

/-- Sorts arguments into options and words. -/
def given? : List String → Option Given
  | [] => some ⟨[], []⟩
  | argument :: rest =>
    match shape? argument with
    | none => none
    | some .word => (given? rest).map (·.withWord argument)
    | some .divider => some ⟨[], rest⟩
    | some (.plain name) => (given? rest).map (·.withOption name "")
    | some (.valued name value) => (given? rest).map (·.withOption name value)
    | some (.awaiting name) =>
      match rest with
      | value :: others => (given? others).map (·.withOption name value)
      | [] => none

/-! ### Commands -/

/-- The options that belong to each command; the others belong to all. -/
def ownOptions : String → List String
  | "compile" => ["resolve", "cutoff"]
  | "materialize" => ["live"]
  | "run" => ["live", "sql-dir", "snapshot", "run-log", "cutoff"]
  | _ => []

/-- The options that belong to all commands. -/
def commonOptions : List String := ["config", "catalog", "dialect", "verbose"]

/-- What the words ask for. -/
def action? (g : Given) : List String → Option Action
  | ["compile", dataset] =>
    if g.has "cutoff" && ! g.has "resolve" then none
    else some (.compile dataset (g.has "resolve") (g.value? "cutoff"))
  | ["materialize", dataset] => some (.materialize dataset (g.value? "live"))
  | "plan" :: roots => some (.plan roots)
  | "run" :: roots => some (.run roots (g.value? "cutoff")
      ⟨g.value? "live", g.value? "sql-dir", g.value? "snapshot", g.value? "run-log"⟩)
  | ["manifest"] => some .manifest
  | ["diff", before, after] => some (.diff before after)
  | _ => none

/-- Reads the dialect that is asked for, if one is. -/
def dialectAsked? (g : Given) : Option (Option Dialect) :=
  match g.value? "dialect" with
  | none => some none
  | some name => (Dialect.all.find? fun d => d.name = name).map some

/-- Reads a command line. -/
def Invocation.parse? (arguments : List String) : Option Invocation := do
  let g ← given? arguments
  let allowed := commonOptions ++ ownOptions (g.words.headD "")
  if g.options.all fun (name, _) => allowed.contains name then
    return ⟨g.value? "config", g.value? "catalog", ← dialectAsked? g, ← action? g g.words⟩
  else none

end Warehouse.Command
