/-
Module: Warehouse.Json.Basic
Purpose: JSON values and their two written forms: the compact one, and the one for people, with a
  member a line and two spaces for each level. A number is kept as it is written. Only what has to
  be escaped is.
Trusted boundary: none
Main exports: Json, Json.compact, Json.pretty, Json.sorted
-/

namespace Warehouse

/-- A JSON value. Members of an object keep their order. -/
inductive Json where
  | null
  | bool (value : Bool)
  | number (lexeme : String)
  | string (value : String)
  | array (items : List Json)
  | object (members : List (String × Json))
deriving Repr, Inhabited

namespace Json

/-- A whole number. -/
def nat (n : Nat) : Json := number (toString n)

/-- A string or `null`. -/
def ofOption : Option String → Json
  | some s => string s
  | none => null

/-- A list of strings. -/
def strings (items : List String) : Json := array (items.map string)

/-- Four hexadecimal digits of a character below 65536. -/
def hex4 (n : Nat) : List Char :=
  [n / 4096, n / 256, n / 16, n].map fun d => Nat.digitChar (d % 16)

/-- A character inside a string. -/
def escapeChar (c : Char) : List Char :=
  if c = '"' then ['\\', '"']
  else if c = '\\' then ['\\', '\\']
  else if c.toNat = 8 then ['\\', 'b']
  else if c = '\t' then ['\\', 't']
  else if c = '\n' then ['\\', 'n']
  else if c.toNat = 12 then ['\\', 'f']
  else if c = '\r' then ['\\', 'r']
  else if c.toNat < 32 then '\\' :: 'u' :: hex4 c.toNat
  else [c]

/-- A string between its quotes. -/
def quoted (s : String) : String :=
  "\"" ++ String.ofList (s.toList.flatMap escapeChar) ++ "\""

mutual

/-- The compact form. -/
def compact : Json → String
  | null => "null"
  | bool b => if b then "true" else "false"
  | number lexeme => lexeme
  | string s => quoted s
  | array items => "[" ++ ",".intercalate (compactItems items) ++ "]"
  | object members => "\x7b" ++ ",".intercalate (compactMembers members) ++ "\x7d"

/-- The compact forms of a list. -/
def compactItems : List Json → List String
  | [] => []
  | item :: rest => item.compact :: compactItems rest

/-- The compact forms of the members of an object. -/
def compactMembers : List (String × Json) → List String
  | [] => []
  | (key, value) :: rest => (quoted key ++ ":" ++ value.compact) :: compactMembers rest

end

/-- A line end and the indentation of a level. -/
def lineBreak (level : Nat) : String := "\n".pushn ' ' (2 * level)

/-- Puts the parts of an array or object on lines of their own, between brackets. -/
def bracketLines (level : Nat) (opening closing : String) (parts : List String) : String :=
  if parts.isEmpty then opening ++ closing
  else opening ++ lineBreak (level + 1) ++ ("," ++ lineBreak (level + 1)).intercalate parts ++
    lineBreak level ++ closing

mutual

/-- The form for people of a value that stands `level` levels deep. -/
def prettyAt (level : Nat) : Json → String
  | array items => bracketLines level "[" "]" (prettyItems (level + 1) items)
  | object members => bracketLines level "\x7b" "\x7d" (prettyMembers (level + 1) members)
  | null => "null"
  | bool b => if b then "true" else "false"
  | number lexeme => lexeme
  | string s => quoted s

/-- The forms of a list. -/
def prettyItems (level : Nat) : List Json → List String
  | [] => []
  | item :: rest => item.prettyAt level :: prettyItems level rest

/-- The forms of the members of an object. -/
def prettyMembers (level : Nat) : List (String × Json) → List String
  | [] => []
  | (key, value) :: rest => (quoted key ++ ": " ++ value.prettyAt level) :: prettyMembers level rest

end

/-- The form for people. -/
def pretty (j : Json) : String := j.prettyAt 0

mutual

/-- The value with the members of every object in the order of their keys. -/
def sorted : Json → Json
  | array items => array (sortedItems items)
  | object members => object ((sortedMembers members).mergeSort fun a b => a.1 ≤ b.1)
  | j => j

/-- `sorted` for every value of a list. -/
def sortedItems : List Json → List Json
  | [] => []
  | item :: rest => item.sorted :: sortedItems rest

/-- `sorted` for the value of every member. -/
def sortedMembers : List (String × Json) → List (String × Json)
  | [] => []
  | (key, value) :: rest => (key, value.sorted) :: sortedMembers rest

end

/-- The members of an object; none for any other value. -/
def members : Json → List (String × Json)
  | object ms => ms
  | _ => []

/-- The member of that name, or `null`. -/
def get (j : Json) (key : String) : Json := (j.members.lookup key).getD null

end Json

end Warehouse
