/-
Module: Warehouse.Load.Filter
Purpose: Carrying an incremental filter over from the columns of an input dataset to those of the
  dataset that it feeds. A filter is a fragment of SQL that nobody has parsed; it is cut into tokens
  just far enough to tell names from strings and placeholders, names that are fed from input columns
  are replaced, and runs of blanks become one space.
Trusted boundary: none
Main exports: FilterToken, filterTokens, retargetFilter
-/
import Warehouse.Catalog.Dataset

namespace Warehouse

/-- A piece of a filter. -/
inductive FilterToken where
  | placeholder (source : List Char)
  | string (source : List Char)
  | word (name : List Char)
  | blank (source : List Char)
  | other (c : Char)
deriving DecidableEq, Repr

/-- The characters that a token was cut from. -/
def FilterToken.source : FilterToken → List Char
  | placeholder s => s
  | string s => s
  | word s => s
  | blank s => s
  | other c => [c]

/-- The text up to and with the first two closing braces, which have to stand on the same line. -/
def throughBraces? : List Char → Option (List Char)
  | [] => none
  | '}' :: '}' :: _ => some ['}', '}']
  | c :: rest => if c = '\n' then none else (throughBraces? rest).map (c :: ·)

/-- The text of a string after its opening quote, up to and with its closing quote. A doubled quote
does not close it, unless no other does: then the first half of the last doubled quote is taken. -/
def throughQuote? : List Char → Option (List Char)
  | [] => none
  | ['\''] => some ['\'']
  | '\'' :: '\'' :: rest =>
    match throughQuote? rest with
    | some body => some ('\'' :: '\'' :: body)
    | none => some ['\'']
  | c :: rest => if c = '\'' then some ['\''] else (throughQuote? rest).map (c :: ·)

/-- Letters that a name may begin with. -/
def isWordStart (c : Char) : Bool := c.isAlpha || c = '_'

/-- Characters that may follow in a name. -/
def isWordChar (c : Char) : Bool := c.isAlphanum || c = '_'

/-- The placeholder that a text begins with. -/
def placeholderToken? (s : List Char) : Option FilterToken :=
  match s with
  | '{' :: '{' :: rest => (throughBraces? rest).map fun body => .placeholder ('{' :: '{' :: body)
  | _ => none

/-- The string that a text begins with. -/
def stringToken? (s : List Char) : Option FilterToken :=
  match s with
  | '\'' :: rest => (throughQuote? rest).map fun body => .string ('\'' :: body)
  | _ => none

/-- The token that a text, which begins with `c`, begins with. -/
def firstToken (c : Char) (rest : List Char) : FilterToken :=
  match (placeholderToken? (c :: rest)).or (stringToken? (c :: rest)) with
  | some token => token
  | none =>
    if isWordStart c then .word (c :: rest.takeWhile isWordChar)
    else if Text.isBlank c then .blank (c :: rest.takeWhile Text.isBlank)
    else .other c

/-- Cuts a filter, of which the first `skip` characters belong to a token that was found before. -/
def filterTokensFrom : Nat → List Char → List FilterToken
  | _, [] => []
  | skip + 1, _ :: rest => filterTokensFrom skip rest
  | 0, c :: rest =>
    let token := firstToken c rest
    token :: filterTokensFrom (token.source.length - 1) rest

/-- Cuts a filter into tokens. -/
def filterTokens (s : List Char) : List FilterToken := filterTokensFrom 0 s

/-- What a token becomes. A name of an input column that feeds nothing is the error. -/
def retargetToken (lineage : List (String × String)) (inputColumns : List String) :
    FilterToken → Except String (List Char)
  | .placeholder s => .ok s
  | .string s => .ok s
  | .blank _ => .ok [' ']
  | .other c => .ok [c]
  | .word s =>
    let name := String.ofList (s.map Char.toLower)
    match lookupLast lineage name with
    | some target => .ok target.toList
    | none => if inputColumns.contains name then .error (String.ofList s) else .ok s

/-- What the tokens become. -/
def retargetTokens (lineage : List (String × String)) (inputColumns : List String) :
    List FilterToken → Except String (List Char)
  | [] => .ok []
  | token :: rest => do
    let first ← retargetToken lineage inputColumns token
    let others ← retargetTokens lineage inputColumns rest
    return first ++ others

/-- The filter on the columns that the input columns feed. `lineage` has the names of input columns
in small letters, as has `inputColumns`. The error is the first input column, as it is spelled, that
feeds nothing. -/
def retargetFilter (filter : String) (lineage : List (String × String))
    (inputColumns : List String) :
    Except String String := do
  let out ← retargetTokens lineage inputColumns (filterTokens filter.toList)
  return String.ofList (Text.trim out)

end Warehouse
