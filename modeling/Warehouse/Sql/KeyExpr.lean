/-
Module: Warehouse.Sql.KeyExpr
Purpose: The small language in which a catalog says what a surrogate key is made of:

    expr   := concat | col | string
    concat := "concat" "(" expr ("," expr)* ")"
    col    := "col" "(" string ")"

  Function names may be in any case, a string stands between single or double quotes and has its
  quote doubled inside, and blanks may stand before any token and at the end. A fault is reported
  with its offset in bytes.
Trusted boundary: none
Main exports: KeyExpr, KeyExpr.parse, KeyExpr.columns, KeyExpr.separator?
-/
import Warehouse.Sql.Error
import Warehouse.Text.Blank
import Warehouse.Text.Bytes

namespace Warehouse.Sql

/-- What a surrogate key is made of. -/
inductive KeyExpr where
  | concat (parts : List KeyExpr)
  | col (name : String)
  | lit (text : String)
deriving Repr

namespace KeyExpr

mutual

/-- The columns that an expression mentions, left to right, as often as it does. -/
def columns : KeyExpr → List String
  | concat parts => columnsOfAll parts
  | col name => [name]
  | lit _ => []

/-- The columns that several expressions mention. -/
def columnsOfAll : List KeyExpr → List String
  | [] => []
  | e :: es => e.columns ++ columnsOfAll es

end

mutual

/-- The first string of an expression. -/
def separator? : KeyExpr → Option String
  | concat parts => separatorOfAll? parts
  | col _ => none
  | lit text => some text

/-- The first string of several expressions. -/
def separatorOfAll? : List KeyExpr → Option String
  | [] => none
  | e :: es => match e.separator? with
    | some text => some text
    | none => separatorOfAll? es

end

/-!
### Reading

A reader takes what is left of the text and returns what it read and what is left then. `total` is
the length of the whole text in bytes, from which the offset of any rest follows. -/

/-- Where in the text a rest of it begins. -/
def offsetOf (total : Nat) (rest : List Char) : Nat := total - Text.byteLength rest

/-- Reads the inside of a string whose opening quote `q` has been read, up to its closing quote. -/
def stringBody? (q : Char) : List Char → Option (List Char × List Char)
  | [] => none
  | [c] => if c = q then some ([], []) else none
  | c :: d :: rest =>
    if c = q then
      if d = q then (stringBody? q rest).map fun (body, rest) => (q :: body, rest)
      else some ([], d :: rest)
    else (stringBody? q (d :: rest)).map fun (body, rest) => (c :: body, rest)

/-- Reads a string. -/
def readString (total : Nat) (s : List Char) : Except SurrogateError (String × List Char) :=
  match s with
  | q :: rest =>
    if q = '"' ∨ q = '\'' then
      match stringBody? q rest with
      | some (body, rest) => .ok (String.ofList body, rest)
      | none => .error (.unterminatedString (offsetOf total s))
    else .error (.expected (offsetOf total s) .quotedString)
  | [] => .error (.expected (offsetOf total s) .quotedString)

/-- Reads one character, after blanks, that has to be `c`. -/
def readMark (total : Nat) (c : Char) (part : ExpectedPart) (s : List Char) :
    Except SurrogateError (List Char) :=
  let s := Text.trimStart s
  match s with
  | d :: rest => if d = c then .ok rest else .error (.expected (offsetOf total s) part)
  | [] => .error (.expected (offsetOf total s) part)

/-- Characters of a function name. -/
def isNameChar (c : Char) : Bool := c.isAlphanum || c = '_'

mutual

/-- Reads an expression. Every call gives up one unit of `fuel`, of which the length of the text is
enough. -/
def readExpr (total : Nat) : Nat → List Char → Except SurrogateError (KeyExpr × List Char)
  | 0, s => .error (.expected (offsetOf total s) .expression)
  | fuel + 1, s =>
    let s := Text.trimStart s
    match s with
    | [] => .error (.expected (offsetOf total s) .expression)
    | c :: _ =>
      if c = '"' ∨ c = '\'' then do
        let (text, rest) ← readString total s
        return (lit text, rest)
      else if c.isAlpha then
        let name := s.takeWhile isNameChar
        let rest := s.dropWhile isNameChar
        if name.map Char.toLower = "concat".toList then do
          let rest ← readMark total '(' .openConcat rest
          let (parts, rest) ← readParts total fuel rest
          return (concat parts, rest)
        else if name.map Char.toLower = "col".toList then do
          let rest ← readMark total '(' .openCol rest
          let (column, rest) ← readString total (Text.trimStart rest)
          let rest ← readMark total ')' .closeCol rest
          return (col column, rest)
        else .error (.unknownFunction (offsetOf total s) (String.ofList name))
      else .error (.expected (offsetOf total s) .expression)

/-- Reads the expressions of a concatenation, with commas between them, and the closing
parenthesis. -/
def readParts (total : Nat) : Nat → List Char → Except SurrogateError (List KeyExpr × List Char)
  | 0, s => .error (.expected (offsetOf total s) .expression)
  | fuel + 1, s => do
    let (first, rest) ← readExpr total fuel s
    match Text.trimStart rest with
    | ',' :: rest => do
      let (others, rest) ← readParts total fuel rest
      return (first :: others, rest)
    | _ => do
      let rest ← readMark total ')' .closeConcat rest
      return ([first], rest)

end

/-- Reads a whole text as one expression. -/
def parse (text : String) : Except SurrogateError KeyExpr := do
  let s := text.toList
  let total := Text.byteLength s
  let (e, rest) ← readExpr total (2 * s.length + 2) s
  let rest := Text.trimStart rest
  if rest.isEmpty then .ok e else .error (.trailingInput (offsetOf total rest))

end KeyExpr

end Warehouse.Sql
