/-
Module: Warehouse.Sql.Template
Purpose: Finding placeholders in finished SQL and putting values in their place. A marker is a name
  between double braces, with blanks around it if the author likes; the text is cut into markers and
  single characters from left to right, and both passes work on that one cut. A value that is put in
  is never looked at again.
Trusted boundary: none
Main exports: Piece, pieces, placeholdersIn, RuntimeValues, substitute, TemplateError
-/
import Warehouse.Sql.Literal
import Warehouse.Text.Blank

namespace Warehouse.Sql

/-- Why a text cannot be completed: a marker names nothing, or its value was not given. -/
inductive TemplateError where
  | unknown (name : String)
  | missingCutoff
deriving DecidableEq, Repr

def TemplateError.message : TemplateError → String
  | unknown name => "unknown placeholder '\x7b\x7b" ++ name ++ "\x7d\x7d'"
  | missingCutoff => "no runtime value supplied for DELTA_CUTOFF"

/-- A part of a text: a character that belongs to no marker, or a marker with the name it holds. -/
inductive Piece where
  | char (c : Char)
  | marker (source : List Char) (name : List Char)
deriving DecidableEq, Repr

/-- The characters that a part was cut from. -/
def Piece.source : Piece → List Char
  | char c => [c]
  | marker source _ => source

/-- Characters of a placeholder's name after its first. -/
def isMarkerNameChar (c : Char) : Bool := c.isAlphanum || c = '_'

/-- The name in the marker that the text begins with, and the marker's length. -/
def marker? (s : List Char) : Option (List Char × Nat) :=
  match s with
  | '{' :: '{' :: rest =>
    let inner := Text.trimStart rest
    let name := inner.takeWhile isMarkerNameChar
    let after := Text.trimStart (inner.drop name.length)
    match name.head?, after with
    | some c, '}' :: '}' :: rest =>
      if c.isDigit then none else some (name, s.length - rest.length)
    | _, _ => none
  | _ => none

/-- Cuts a text, of which the first `skip` characters belong to a marker that was found before. -/
def piecesFrom : Nat → List Char → List Piece
  | _, [] => []
  | skip + 1, _ :: rest => piecesFrom skip rest
  | 0, c :: rest =>
    match marker? (c :: rest) with
    | some (name, length) => .marker ((c :: rest).take length) name :: piecesFrom (length - 1) rest
    | none => .char c :: piecesFrom 0 rest

/-- Cuts a text into markers and single characters. -/
def pieces (s : List Char) : List Piece := piecesFrom 0 s

/-- The placeholder of a marker. -/
def placeholderNamed (name : List Char) : Except TemplateError Placeholder :=
  match Placeholder.ofName? (String.ofList name) with
  | some p => .ok p
  | none => .error (.unknown (String.ofList name))

/-- The placeholders of the markers among the pieces, in order. -/
def placeholdersOf : List Piece → Except TemplateError (List Placeholder)
  | [] => .ok []
  | .char _ :: rest => placeholdersOf rest
  | .marker _ name :: rest => do
    let first ← placeholderNamed name
    let others ← placeholdersOf rest
    return first :: others

/-- The placeholders in a text, each once, in the order of their declaration. -/
def placeholdersIn (sql : String) : Except TemplateError (List Placeholder) := do
  let found ← placeholdersOf (pieces sql.toList)
  return Placeholder.all.filter found.contains

/-- The values of one load. The cutoff is known to incremental loads only. -/
structure RuntimeValues where
  loadRunId : String
  loadTimestamp : Timestamp
  deltaCutoff : Option Timestamp

/-- The SQL for the value of a placeholder. -/
def RuntimeValues.resolve (values : RuntimeValues) (d : Dialect) :
    Placeholder → Except TemplateError String
  | .loadRunId => .ok (d.quoteString values.loadRunId)
  | .loadTimestamp => .ok (d.timestampLiteral values.loadTimestamp.sqlText)
  | .deltaCutoff =>
    match values.deltaCutoff with
    | some t => .ok (d.timestampLiteral t.sqlText)
    | none => .error .missingCutoff

/-- The text of the pieces, with values in the place of markers. -/
def substitutePieces (d : Dialect) (values : RuntimeValues) :
    List Piece → Except TemplateError (List Char)
  | [] => .ok []
  | .char c :: rest => do
    let others ← substitutePieces d values rest
    return c :: others
  | .marker _ name :: rest => do
    let value ← values.resolve d (← placeholderNamed name)
    let others ← substitutePieces d values rest
    return value.toList ++ others

/-- Puts values in the place of the markers of a text. The first marker from the left that has no
value fails the whole. -/
def substitute (sql : String) (d : Dialect) (values : RuntimeValues) :
    Except TemplateError String := do
  return String.ofList (← substitutePieces d values (pieces sql.toList))

end Warehouse.Sql
