/-
Module: Warehouse.Catalog.Key
Purpose: The name of a dataset: a schema and a name in it, written with a point between them. Keys
  are ordered by schema, then by name.
Trusted boundary: none
Main exports: DatasetKey, DatasetKey.display, DatasetKey.parse?, DatasetKey.le
-/
import Warehouse.Text.Blank

namespace Warehouse

/-- The schema and the name of a dataset. -/
structure DatasetKey where
  schema : String
  name : String
deriving DecidableEq, Repr, Inhabited

namespace DatasetKey

def display (k : DatasetKey) : String := k.schema ++ "." ++ k.name

/-- Reads a key: two parts that are not empty, with the only point between them. -/
def parse? (text : String) : Option DatasetKey :=
  match Text.splitWhere (· = '.') (Text.trim text.toList) with
  | [schema, name] =>
    if schema.isEmpty || name.isEmpty then none
    else some ⟨String.ofList schema, String.ofList name⟩
  | _ => none

/-- The order by schema and then by name, which is the order of code points in each. -/
def compare (a b : DatasetKey) : Ordering :=
  (Ord.compare a.schema b.schema).then (Ord.compare a.name b.name)

instance : Ord DatasetKey := ⟨compare⟩

/-- Whether `a` comes before `b` or is `b`. -/
def le (a b : DatasetKey) : Bool := (a.compare b).isLE

/-- The keys in ascending order. -/
def sort (keys : List DatasetKey) : List DatasetKey := keys.mergeSort le

end DatasetKey

end Warehouse
