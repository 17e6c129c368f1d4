/-
Module: Warehouse.Sql.Expr.Tokens
Purpose: The tokens of expressions and queries. Each form is written from the tokens of its parts,
  left to right, and the first part that cannot be written fails the whole. Parentheses are put
  around an operand only where the operator around it would bind tighter: a connective inside a
  comparison or inside the other connective, and a concatenation inside any operator.
Trusted boundary: none
Main exports: Expr.tokens, Plan.tokens, Expr.sql, Plan.sql, literalSql, needsParens
-/
import Warehouse.Sql.Expr

namespace Warehouse.Sql

namespace Dialect

/-- The tokens that give a table an alias. -/
def aliasTokens (d : Dialect) (name : String) : List Token :=
  Token.space :: (if d.tableAliasKeyword then [word .as, Token.space] else []) ++ [Token.name name]

/-- The tokens of a 256-bit hash, in hexadecimal, of a text. -/
def hash256Tokens (d : Dialect) (input : List Token) : List Token :=
  let (before, after) := match d with
    | duckdb => ("SHA256(", ")")
    | postgres => ("ENCODE(SHA256(CONVERT_TO(", ", 'UTF8')), 'hex')")
    | tsql | fabric =>
      ("LOWER(CONVERT(VARCHAR(64), HASHBYTES('SHA2_256', CONVERT(VARCHAR(MAX), ", ")), 2))")
    | bigquery => ("TO_HEX(SHA256(", "))")
    | oracle => ("LOWER(RAWTOHEX(STANDARD_HASH(", ", 'SHA256')))")
    | mysql | snowflake | redshift | databricks => ("SHA2(", ", 256)")
  Token.raw before :: (input ++ [Token.raw after])

/-- The tokens of several texts joined into one: the operator between them, or a call where the
operator means something else. No text is the empty text, and one is itself. -/
def concatTokens (d : Dialect) (parts : List (List Token)) : List Token :=
  match parts with
  | [] => [.string ""]
  | [part] => part
  | _ =>
    if d.hasConcatOperator then
      (parts.intersperse [Token.space, sign .concat, Token.space]).flatten
    else .function "CONCAT" :: parenthesised (commaSeparated parts)

end Dialect

/-- The tokens of a table and its alias. -/
def TableRef.tokens (d : Dialect) (t : TableRef) : List Token :=
  t.table.token :: (match t.alias? with
    | some name => d.aliasTokens name
    | none => [])

/-- Whether an operand of `parent` stands in parentheses. -/
def needsParens (parent : BinaryOp) : Expr → Bool
  | .binary _ op _ => op.isLogical && (op ≠ parent || ! parent.isLogical)
  | .concat parts => 1 < parts.length
  | _ => false

/-- Parentheses where they are needed. -/
def parenthesisedIf (needed : Bool) (tokens : List Token) : List Token :=
  if needed then parenthesised tokens else tokens

mutual

def Expr.tokens (d : Dialect) : Expr → Except SqlError (List Token)
  | .column table name =>
    .ok ((match table with
      | some t => [t.token, sign .dot]
      | none => []) ++ [Token.name name])
  | .literal value => do return [← value.token d]
  | .cast operand type => do
    let inner ← operand.tokens d
    return word .cast ::
      parenthesised (inner ++ [Token.space, word .as, Token.space, Token.raw (d.castType type)])
  | .concat parts => do return d.concatTokens (← Expr.tokensOfAll d parts)
  | .coalesce [] => .error (.empty .coalesce)
  | .coalesce args => do
    return .function "COALESCE" :: parenthesised (commaSeparated (← Expr.tokensOfAll d args))
  | .call function args => do
    return .function function :: parenthesised (commaSeparated (← Expr.tokensOfAll d args))
  | .hash256 input => do return d.hash256Tokens (← input.tokens d)
  | .rowNumber partition order =>
    if order.isEmpty && d.rowNumberNeedsOrder then .error (.unsupported d .rowNumberWithoutOrder)
    else do
      let groups ← Expr.tokensOfAll d partition
      let keys ← SortKey.tokensOfAll d order
      let partitionClause := if partition.isEmpty then []
        else word .partitionBy :: Token.space :: commaSeparated groups
      let orderClause := if order.isEmpty then []
        else word .orderBy :: Token.space :: commaSeparated keys
      let between : List Token := if partition.isEmpty || order.isEmpty then [] else [Token.space]
      return .function "ROW_NUMBER" :: (parenthesised [] ++
        [Token.space, word .over, Token.space] ++
        parenthesised (partitionClause ++ between ++ orderClause))
  | .binary left op right => do
    let l ← left.tokens d
    let r ← right.tokens d
    return parenthesisedIf (needsParens op left) l ++ [Token.space, op.token, Token.space] ++
      parenthesisedIf (needsParens op right) r
  | .not operand => do
    return word .not :: Token.space :: parenthesised (← operand.tokens d)
  | .isNull operand negated => do
    let inner ← operand.tokens d
    return inner ++ [Token.space, word .is, Token.space] ++
      (if negated then [word .not, Token.space] else []) ++ [word .null]
  | .exists query negated => do
    let inner ← query.tokens d
    return (if negated then [word .not, Token.space] else []) ++
      word .exists :: Token.space :: parenthesised inner
  | .star table =>
    .ok ((match table with
      | some t => [Token.name t, sign .dot]
      | none => []) ++ [sign .star])
  | .placeholder which => .ok [.placeholder which]
  | .raw sql => .ok [Token.raw sql]

/-- The tokens of several expressions, in order. -/
def Expr.tokensOfAll (d : Dialect) : List Expr → Except SqlError (List (List Token))
  | [] => .ok []
  | e :: es => do
    let first ← e.tokens d
    let others ← Expr.tokensOfAll d es
    return first :: others

/-- The tokens of an optional expression. -/
def Expr.tokensOfOption (d : Dialect) : Option Expr → Except SqlError (Option (List Token))
  | none => .ok none
  | some e => do return some (← e.tokens d)

/-- The tokens of a key of an order. -/
def SortKey.tokens (d : Dialect) : SortKey → Except SqlError (List Token)
  | ⟨expr, descending⟩ => do
    let inner ← expr.tokens d
    return inner ++ [Token.space, word (if descending then .desc else .asc)]

/-- The tokens of several keys, in order. -/
def SortKey.tokensOfAll (d : Dialect) : List SortKey → Except SqlError (List (List Token))
  | [] => .ok []
  | k :: ks => do
    let first ← k.tokens d
    let others ← SortKey.tokensOfAll d ks
    return first :: others

/-- The tokens of a column of a result. -/
def SelectItem.tokens (d : Dialect) : SelectItem → Except SqlError (List Token)
  | ⟨expr, name⟩ => do
    let inner ← expr.tokens d
    return inner ++ (match name with
      | some n => [Token.space, word .as, Token.space, Token.name n]
      | none => [])

/-- The tokens of several columns, in order. -/
def SelectItem.tokensOfAll (d : Dialect) : List SelectItem → Except SqlError (List (List Token))
  | [] => .ok []
  | i :: is => do
    let first ← i.tokens d
    let others ← SelectItem.tokensOfAll d is
    return first :: others

/-- The tokens of what a query reads from. -/
def Source.tokens (d : Dialect) : Source → Except SqlError (List Token)
  | .table t => .ok (t.tokens d)
  | .subquery query name => do
    let inner ← query.tokens d
    return parenthesised (Token.newline :: (inner ++ [Token.newline])) ++ d.aliasTokens name

/-- The tokens of an optional source. -/
def Source.tokensOfOption (d : Dialect) : Option Source → Except SqlError (Option (List Token))
  | none => .ok none
  | some s => do return some (← s.tokens d)

/-- The tokens of a `SELECT`, a clause a line. -/
def Select.tokens (d : Dialect) : Select → Except SqlError (List Token)
  | ⟨distinct, items, source, filter, groupBy⟩ =>
    if items.isEmpty then .error (.empty .selectList)
    else do
      let columns ← SelectItem.tokensOfAll d items
      let source ← Source.tokensOfOption d source
      let filter ← Expr.tokensOfOption d filter
      let keys ← Expr.tokensOfAll d groupBy
      let clause (key : Keyword) (body : List Token) : List Token :=
        Token.newline :: word key :: Token.space :: body
      return word .select :: Token.space ::
        ((if distinct then [word .distinct, Token.space] else []) ++ commaSeparated columns ++
        (source.map (clause .from)).getD [] ++
        (filter.map (clause .where)).getD [] ++
        (if groupBy.isEmpty then [] else clause .groupBy (commaSeparated keys)))

/-- The tokens of several `SELECT`s, in order. -/
def Select.tokensOfAll (d : Dialect) : List Select → Except SqlError (List (List Token))
  | [] => .ok []
  | s :: ss => do
    let first ← s.tokens d
    let others ← Select.tokensOfAll d ss
    return first :: others

def Plan.tokens (d : Dialect) : Plan → Except SqlError (List Token)
  | .select body => body.tokens d
  | .union branches mode =>
    if branches.isEmpty then .error (.empty .union)
    else do
      let parts ← Select.tokensOfAll d branches
      let words : List Token := match mode with
        | .all => phrase [.union, .all]
        | .distinct => [Token.raw d.unionDistinctKeyword]
      return (parts.intersperse (Token.newline :: (words ++ [Token.newline]))).flatten

end

def Expr.sql (d : Dialect) (e : Expr) : Except SqlError String := do
  return render d (← e.tokens d)

def Plan.sql (d : Dialect) (p : Plan) : Except SqlError String := do
  return render d (← p.tokens d)

/-- The text of a constant, or of `NULL` for none. -/
def literalSql (d : Dialect) (value : Option Literal) : Except SqlError String :=
  match value with
  | some v => do return (← v.token d).text d
  | none => .ok (Token.null.text d)

end Warehouse.Sql
