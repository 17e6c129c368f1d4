/-
Module: Warehouse.Command.Host
Purpose: What the commands need of the machine they run on: files, variables, a clock, fresh names,
  and two places to write lines to.
Trusted boundary: none
Main exports: FileError, Host, joinPath
-/
import Warehouse.Calendar

namespace Warehouse.Command

/-- Why a file cannot be used. -/
inductive FileError where
  | notFound
  | alreadyThere
  | notDirectory
  | isDirectory
  | other (report : String)
deriving DecidableEq, Repr

/-- The report of an error, with the number that the system gives it. -/
def FileError.message : FileError → String
  | notFound => "No such file or directory (os error 2)"
  | alreadyThere => "File exists (os error 17)"
  | notDirectory => "Not a directory (os error 20)"
  | isDirectory => "Is a directory (os error 21)"
  | other report => report

/-- A machine to run on. Paths are as the user writes them. -/
structure Host (m : Type → Type) where
  /-- The text of a file. -/
  read : (path : String) → m (Except FileError String)
  /-- Gives a file a text, whatever it held. -/
  write : (path text : String) → m (Except FileError Unit)
  /-- Adds a text to the end of a file, which is made if need be. -/
  append : (path text : String) → m (Except FileError Unit)
  /-- Makes a directory and those that it is in, unless they are there. -/
  createDirectories : (path : String) → m (Except FileError Unit)
  /-- Whether there is a file or a directory. -/
  isThere : (path : String) → m Bool
  /-- The value of a variable of the environment. -/
  variableValue : (name : String) → m (Option String)
  /-- A text that is different each time. -/
  freshId : m String
  /-- The present moment. -/
  now : m Timestamp
  /-- Milliseconds since some moment. -/
  clockMs : m Nat
  /-- Writes a text and a line end for who uses the results. -/
  print : String → m Unit
  /-- Writes a text and a line end for who watches. -/
  report : String → m Unit

/-- The path of something in a directory. -/
def joinPath (directory name : String) : String :=
  if name.startsWith "/" || directory.isEmpty then name
  else if directory.endsWith "/" then directory ++ name
  else directory ++ "/" ++ name

end Warehouse.Command
