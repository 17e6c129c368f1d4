/-
Module: Warehouse.Sql.Placeholder
Purpose: The three values that SQL refers to before they are known. A placeholder stands in a text
  as a marker between double braces, and a later pass puts the value in its place.
Trusted boundary: none
Main exports: Placeholder, Placeholder.marker, Placeholder.ofName?
-/
import Warehouse.Text.LetterCase

namespace Warehouse.Sql

/-- A value that a run supplies: where an incremental load left off, when the load started, and
which load it is. -/
inductive Placeholder where
  | deltaCutoff
  | loadTimestamp
  | loadRunId
deriving DecidableEq, Repr

namespace Placeholder

/-- Every placeholder, in the order of their declaration. -/
def all : List Placeholder := [deltaCutoff, loadTimestamp, loadRunId]

/-- The marker that stands for the value. -/
def marker : Placeholder → String
  | deltaCutoff => "\x7b\x7bDELTA_CUTOFF\x7d\x7d"
  | loadTimestamp => "\x7b\x7b load_timestamp \x7d\x7d"
  | loadRunId => "\x7b\x7b load_run_id \x7d\x7d"

/-- The placeholder of a name, in any case. -/
def ofName? (name : String) : Option Placeholder :=
  match Text.asciiLower name with
  | "delta_cutoff" => some deltaCutoff
  | "load_timestamp" => some loadTimestamp
  | "load_run_id" => some loadRunId
  | _ => none

end Placeholder

end Warehouse.Sql
