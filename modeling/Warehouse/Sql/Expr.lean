/-
Module: Warehouse.Sql.Expr
Purpose: Expressions and queries as data. The two define each other, since a query stands inside
  `EXISTS` and expressions stand everywhere in a query. A query holds no text of SQL except in a
  `raw` leaf.
Trusted boundary: none
Main exports: Expr, SortKey, SelectItem, Source, Select, Plan, and the short forms of common
  expressions
-/
import Warehouse.Sql.Literal

namespace Warehouse.Sql

/-- The name of a table or of an alias, with the schema it stands in. -/
structure ObjectName where
  schema : Option String
  name : String
deriving DecidableEq, Repr

namespace ObjectName

def token (n : ObjectName) : Token := .qualified n.schema n.name

/-- The unquoted form, for reports. -/
def display (n : ObjectName) : String :=
  match n.schema with
  | some s => s ++ "." ++ n.name
  | none => n.name

end ObjectName

/-- A table in a `FROM` clause, under an alias if it has one. -/
structure TableRef where
  table : ObjectName
  alias? : Option String
deriving DecidableEq, Repr

/-- Comparisons and the two logical connectives. -/
inductive BinaryOp where
  | eq | ne | lt | gt | lte | gte | and | or
deriving DecidableEq, Repr

namespace BinaryOp

/-- Whether an operator connects truth values. -/
def isLogical : BinaryOp → Bool
  | and | or => true
  | _ => false

def token : BinaryOp → Token
  | eq => sign .eq
  | ne => sign .ne
  | lt => sign .lt
  | gt => sign .gt
  | lte => sign .lte
  | gte => sign .gte
  | and => word .and
  | or => word .or

end BinaryOp

/-- Whether a union keeps duplicates. -/
inductive UnionMode where
  | distinct
  | all
deriving DecidableEq, Repr

mutual

/-- A scalar expression or predicate. -/
inductive Expr where
  | column (table : Option ObjectName) (name : String)
  | literal (value : Literal)
  | cast (operand : Expr) (type : DataType)
  | concat (parts : List Expr)
  | coalesce (args : List Expr)
  | call (function : String) (args : List Expr)
  | hash256 (input : Expr)
  | rowNumber (partition : List Expr) (order : List SortKey)
  | binary (left : Expr) (op : BinaryOp) (right : Expr)
  | not (operand : Expr)
  | isNull (operand : Expr) (negated : Bool)
  | exists (query : Plan) (negated : Bool)
  | star (table : Option String)
  | placeholder (which : Placeholder)
  | raw (sql : String)

/-- One key of an order. -/
structure SortKey where
  expr : Expr
  descending : Bool

/-- A column of a result, under an alias if it has one. -/
structure SelectItem where
  expr : Expr
  alias? : Option String

/-- What a query reads from. -/
inductive Source where
  | table (table : TableRef)
  | subquery (query : Plan) (name : String)

/-- A single `SELECT`. -/
structure Select where
  distinct : Bool
  items : List SelectItem
  source : Option Source
  filter : Option Expr
  groupBy : List Expr

/-- A query: one `SELECT`, or several joined by `UNION`. -/
inductive Plan where
  | select (body : Select)
  | union (branches : List Select) (mode : UnionMode)

end

namespace Expr

/-- A column that needs no qualifier. -/
def col (name : String) : Expr := column none name

/-- A column of the table that goes by `name`. -/
def colOf (qualifier name : String) : Expr := column (some ⟨none, qualifier⟩) name

/-- A string constant. -/
def str (s : String) : Expr := literal (.string s)

/-- Equality. -/
def eq (a b : Expr) : Expr := binary a .eq b

/-- Inequality. -/
def ne (a b : Expr) : Expr := binary a .ne b

/-- Conjunction. -/
def and (a b : Expr) : Expr := binary a .and b

/-- The conjunction of the predicates, nested to the left; none for none. -/
def andAll : List Expr → Option Expr
  | [] => none
  | p :: ps => some (ps.foldl Expr.and p)

/-- Adds a predicate to a filter that may have one already. -/
def addFilter (filter : Option Expr) (predicate : Expr) : Expr :=
  match filter with
  | none => predicate
  | some existing => existing.and predicate

end Expr

namespace SelectItem

/-- The name that a column has in the result, where it has one. -/
def outputName? (item : SelectItem) : Option String :=
  match item.alias?, item.expr with
  | some name, _ => some name
  | none, .column _ name => some name
  | none, _ => none

end SelectItem

namespace Select

/-- A `SELECT` of the given columns and nothing else. -/
def ofItems (items : List SelectItem) : Select := ⟨false, items, none, none, []⟩

/-- The same reading from `source`. -/
def reading (s : Select) (source : Source) : Select := { s with source := some source }

/-- The same with one more condition. -/
def andWhere (s : Select) (predicate : Expr) : Select :=
  { s with filter := some (Expr.addFilter s.filter predicate) }

end Select

namespace Plan

/-- The `SELECT` that gives a query's columns their names: its only one, or the first of a union. -/
def head? : Plan → Option Select
  | select body => some body
  | union branches _ => branches.head?

/-- The names of a query's columns, in order. -/
def outputNames (p : Plan) : List (Option String) :=
  match p.head? with
  | some body => body.items.map SelectItem.outputName?
  | none => []

end Plan

end Warehouse.Sql
