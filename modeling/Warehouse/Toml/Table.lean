/-
Module: Warehouse.Toml.Table
Purpose: Building the table of a document. A table can be named in a header, implied by a header of
  one inside it, or made by a key with points; only one that is implied may still get a header, and
  only one made by keys with points may be extended by such keys. A name stands for one thing.
Trusted boundary: none
Main exports: Toml.Origin, Toml.Node, Toml.Change, Toml.build?, Toml.inlineTable?
-/
import Warehouse.Toml.Basic

namespace Warehouse.Toml

/-- How a table came to be. -/
inductive Origin where
  | header
  | implied
  | pointed
deriving DecidableEq, Repr

/-- What a name stands for while a table is being built: a value, a table, or a list of tables, the
last first. -/
inductive Node where
  | value (v : Toml)
  | table (origin : Origin) (entries : List (String × Node))
  | tables (elements : List (List (String × Node)))

/-- The names of a table and what they stand for. -/
abbrev Entries := List (String × Node)

/-- A change of a table, which may be refused. -/
abbrev Change := Origin → Entries → Option (Origin × Entries)

/-- The entries with another meaning of a name that they have. -/
def replaceEntry (es : Entries) (name : String) (node : Node) : Entries :=
  es.map fun (n, old) => if n = name then (n, node) else (n, old)

/-- Changes the table at the end of a path. Tables on the way that are not there yet are made; a
path of `pointed` keys does not lead through a table that has a header. Of a list of tables the last
is meant. -/
def changeAt (pointed : Bool) (change : Change) : List String → Change
  | [], o, es => change o es
  | name :: path, o, es =>
    match es.lookup name with
    | none => do
      let (o', inner) ← changeAt pointed change path (if pointed then .pointed else .implied) []
      some (o, es ++ [(name, .table o' inner)])
    | some (.table o' inner) => do
      if pointed ∧ o' = .header then none
      else
        let (o', inner) ← changeAt pointed change path o' inner
        some (o, replaceEntry es name (.table o' inner))
    | some (.tables (last :: earlier)) => do
      let (_, last) ← changeAt pointed change path .header last
      some (o, replaceEntry es name (.tables (last :: earlier)))
    | some (.tables []) | some (.value _) => none

/-- Gives a name a value. -/
def insertValue (afterPoint : Bool) (name : String) (v : Toml) : Change := fun o es =>
  if decide (o = .pointed) ≠ afterPoint ∨ (es.lookup name).isSome then none
  else some (o, es ++ [(name, .value v)])

/-- Gives a path of keys a value. -/
def assign (path : List String) (v : Toml) : Change :=
  match path.getLast? with
  | none => fun _ _ => none
  | some name => changeAt true (insertValue (1 < path.length) name v) path.dropLast

/-- Makes a table under a header's last name. -/
def openTable (name : String) : Change := fun o es =>
  match es.lookup name with
  | none => some (o, es ++ [(name, .table .header [])])
  | some (.table .implied inner) => some (o, replaceEntry es name (.table .header inner))
  | _ => none

/-- Adds a table to the list under a header's last name. -/
def openElement (name : String) : Change := fun o es =>
  match es.lookup name with
  | none => some (o, es ++ [(name, .tables [[]])])
  | some (.tables elements) => some (o, replaceEntry es name (.tables ([] :: elements)))
  | _ => none

/-- Opens what the header with that path names. -/
def openHeader (path : List String) (opening : String → Change) : Change :=
  match path.getLast? with
  | none => fun _ _ => none
  | some name => changeAt false (opening name) path.dropLast

mutual

/-- The value that a node stands for in the end. -/
def Node.toml : Node → Toml
  | .value v => v
  | .table _ entries => .table (tomlEntries entries)
  | .tables elements => .array (tomlElements elements).reverse

/-- The values that names stand for. -/
def tomlEntries : List (String × Node) → List (String × Toml)
  | [] => []
  | (name, node) :: rest => (name, node.toml) :: tomlEntries rest

/-- The values of the tables of a list. -/
def tomlElements : List (List (String × Node)) → List Toml
  | [] => []
  | entries :: rest => .table (tomlEntries entries) :: tomlElements rest

end

/-- Makes changes one after another. -/
def changeAll : List Change → Change
  | [], o, es => some (o, es)
  | change :: rest, o, es => do
    let (o, es) ← change o es
    changeAll rest o es

/-- The table that changes make of an empty one. -/
def build? (changes : List Change) : Option Toml :=
  (changeAll changes .header []).map fun (_, es) => .table (tomlEntries es)

/-- The table whose entries stand on one line. -/
def inlineTable? (entries : List (List String × Toml)) : Option Toml :=
  build? (entries.map fun (path, v) => assign path v)

end Warehouse.Toml
