/-
Module: Warehouse.Sql.Token
Purpose: SQL as a list of tokens. A token knows its kind and its content but no dialect; only
  `Token.text` chooses quotes, operators and function names, so that every text reaches the output
  through a quoting rule unless it is raw. Spaces and line ends are tokens too: the text of a list
  is the concatenation of the texts of its tokens.
Trusted boundary: none
Main exports: Keyword, Symbol, Token, Token.text, render, commaSeparated
-/
import Warehouse.Number.Binary64
import Warehouse.Sql.FunctionName
import Warehouse.Sql.Placeholder
import Warehouse.Sql.Quoting

namespace Warehouse.Sql

/-- The words of SQL that are written the same everywhere. -/
inductive Keyword where
  | select | distinct | from | where | and | or | not | as | on | join | inner | left
    | groupBy | orderBy
  | asc | desc | union | all | null | is | in | exists | case | when | then | else | end | over
  | partitionBy | cast
  | create | alter | table | column | schema | add | if | rename | to | view | replace | truncate
  | insert | into | values | update | set | delete | using | merge | matched
deriving DecidableEq, Repr

/-- How a keyword is written. -/
def Keyword.text : Keyword → String
  | select => "SELECT"
  | distinct => "DISTINCT"
  | .from => "FROM"
  | .where => "WHERE"
  | and => "AND"
  | or => "OR"
  | not => "NOT"
  | as => "AS"
  | on => "ON"
  | join => "JOIN"
  | inner => "INNER"
  | left => "LEFT"
  | groupBy => "GROUP BY"
  | orderBy => "ORDER BY"
  | asc => "ASC"
  | desc => "DESC"
  | union => "UNION"
  | all => "ALL"
  | null => "NULL"
  | is => "IS"
  | .in => "IN"
  | «exists» => "EXISTS"
  | case => "CASE"
  | when => "WHEN"
  | .then => "THEN"
  | .else => "ELSE"
  | .end => "END"
  | .over => "OVER"
  | partitionBy => "PARTITION BY"
  | cast => "CAST"
  | create => "CREATE"
  | alter => "ALTER"
  | table => "TABLE"
  | column => "COLUMN"
  | schema => "SCHEMA"
  | add => "ADD"
  | .if => "IF"
  | rename => "RENAME"
  | .to => "TO"
  | view => "VIEW"
  | replace => "REPLACE"
  | truncate => "TRUNCATE"
  | insert => "INSERT"
  | into => "INTO"
  | values => "VALUES"
  | update => "UPDATE"
  | set => "SET"
  | delete => "DELETE"
  | .using => "USING"
  | merge => "MERGE"
  | matched => "MATCHED"

/-- Every keyword, once. -/
def Keyword.list : List Keyword :=
  [select, distinct, .from, .where, and, or, not, as, on, join, inner, left, groupBy,
    orderBy, asc, desc,
   union, all, null, is, .in, «exists», case, when, .then, .else, .end, .over, partitionBy,
   cast, create,
   alter, table, column, schema, add, .if, rename, .to, view, replace, truncate, insert,
   into, values, update, set, delete, .using, merge, matched]

/-- Punctuation and operators. -/
inductive Symbol where
  | comma | dot | star | open | close | semicolon | eq | ne | lt | gt | lte | gte | plus
    | minus | concat
deriving DecidableEq, Repr

/-- How a symbol is written; only concatenation depends on the dialect. -/
def Symbol.text (d : Dialect) : Symbol → String
  | comma => ","
  | dot => "."
  | star => "*"
  | .open => "("
  | close => ")"
  | semicolon => ";"
  | eq => "="
  | ne => "<>"
  | lt => "<"
  | gt => ">"
  | lte => "<="
  | gte => ">="
  | plus => "+"
  | minus => "-"
  | concat => d.concatOperator

/-- A piece of SQL that is written without regard to its neighbours. -/
inductive Token where
  | keyword (word : Keyword)
  | symbol (sign : Symbol)
  | space
  | newline
  | indent (levels : Nat)
  | name (name : String)
  | qualified (schema : Option String) (name : String)
  | int (value : Int)
  | float (value : Number.Binary64)
  | string (value : String)
  | bool (value : Bool)
  | null
  | function (name : String)
  | placeholder (which : Placeholder)
  | raw (sql : String)
deriving DecidableEq, Repr

namespace Token

/-- How a token is written. -/
def text (d : Dialect) : Token → String
  | keyword w => w.text
  | symbol s => s.text d
  | space => " "
  | newline => "\n"
  | indent n => "".pushn ' ' (4 * n)
  | name n => d.quoteName n
  | qualified none n => d.quoteName n
  | qualified (some s) n => d.quoteName s ++ "." ++ d.quoteName n
  | int n => toString n
  | float x => x.text
  | string s => d.quoteString s
  | bool b => d.boolText b
  | null => "NULL"
  | function n => d.functionName n
  | placeholder p => p.marker
  | raw s => s

end Token

/-- The token of a keyword. -/
abbrev word (k : Keyword) : Token := .keyword k

/-- The token of a symbol. -/
abbrev sign (s : Symbol) : Token := .symbol s

/-- The text of a list of tokens. -/
def render (d : Dialect) (tokens : List Token) : String := String.join (tokens.map (Token.text d))

/-- The lists one after another, with a comma and a space between each two. -/
def commaSeparated (items : List (List Token)) : List Token :=
  (items.intersperse [.symbol .comma, .space]).flatten

/-- The tokens between parentheses. -/
def parenthesised (tokens : List Token) : List Token :=
  .symbol .open :: (tokens ++ [.symbol .close])

/-- Keywords with a space between each two. -/
def phrase (words : List Keyword) : List Token := (words.map Token.keyword).intersperse .space

/-- The text of two lists is the text of the first before that of the second. -/
theorem render_append (d : Dialect) (s t : List Token) :
    render d (s ++ t) = render d s ++ render d t := by
  simp [render, String.join_append]

end Warehouse.Sql
