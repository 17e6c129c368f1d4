/-
Module: Warehouse.Settings.Variables
Purpose: Variables of the environment inside a text. A text is cut into plain characters and
  references, written `$name` or with the name between braces; every reference is replaced by the
  value of its variable, and what a value holds is not looked at again.
Trusted boundary: none
Main exports: Environment, Fragment, fragments, variablesIn, expandVariables
-/
import Warehouse.Text.CharClass

namespace Warehouse

/-- The value of each variable, as a text. A variable has none if it is not set, or if it is set to
something that is no Unicode text: a reference to either is a reference to a missing variable. -/
abbrev Environment := String → Option String

/-- The environment whose entries, in the form `name=value`, are those of the pairs. The value of a
variable is what follows its name and an equals sign in the first entry that begins so. -/
def Environment.ofPairs (pairs : List (String × String)) : Environment := fun name =>
  pairs.findSome? fun (n, v) =>
    let entry := (n ++ "=" ++ v).toList
    let start := (name ++ "=").toList
    if start.isPrefixOf entry then some (String.ofList (entry.drop start.length)) else none

/-- A part of a text: a character, or a reference to a variable. -/
inductive Fragment where
  | plain (c : Char)
  | variable (name : List Char)
deriving DecidableEq, Repr

/-- A character of a name that stands without braces. -/
def isNameChar (c : Char) : Bool := Text.isAlphanumeric c || c = '_'

/-- A reference, unless the name is empty; then the dollar sign stands for itself. -/
def Fragment.ofName (name : List Char) : Fragment :=
  if name.isEmpty then .plain '$' else .variable name

/-- The parts of a text. A name between braces goes up to the closing brace, or the end of the
text. -/
def fragments (s : List Char) : List Fragment :=
  match s with
  | [] => []
  | '$' :: '\x7b' :: rest =>
    .ofName (rest.takeWhile (· ≠ '\x7d')) :: fragments ((rest.dropWhile (· ≠ '\x7d')).drop 1)
  | '$' :: rest => .ofName (rest.takeWhile isNameChar) :: fragments (rest.dropWhile isNameChar)
  | c :: rest => .plain c :: fragments rest
termination_by s.length
decreasing_by
  · have := (List.dropWhile_suffix (l := rest) (· ≠ '\x7d')).length_le
    simp only [List.length_cons, List.length_drop]
    omega
  · have := (List.dropWhile_suffix (l := rest) isNameChar).length_le
    simp only [List.length_cons]
    omega
  · simp

/-- The variables that a text refers to. -/
def variablesIn (text : String) : List String :=
  (fragments text.toList).filterMap fun
    | .plain _ => none
    | .variable name => some (String.ofList name)

/-- A variable that is not set. -/
structure MissingVariable where
  name : String
deriving DecidableEq, Repr

/-- What a part is replaced by. -/
def Fragment.value (env : Environment) : Fragment → Except MissingVariable (List Char)
  | .plain c => .ok [c]
  | .variable name =>
    match env (String.ofList name) with
    | some v => .ok v.toList
    | none => .error ⟨String.ofList name⟩

/-- The text with every reference replaced, or the first variable that is not set. -/
def expandVariables (env : Environment) (text : String) : Except MissingVariable String := do
  let values ← (fragments text.toList).mapM (Fragment.value env)
  return String.ofList values.flatten

end Warehouse
