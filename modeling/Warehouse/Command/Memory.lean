/-
Module: Warehouse.Command.Memory
Purpose: A machine that is held in memory, on which commands can be tried without touching any
  other. Its files stand under absolute paths; a relative path starts at the home directory. Time
  stands still there, and fresh names are counted.
Trusted boundary: none
Main exports: Disk, Memory, Memory.host
-/
import Warehouse.Command.Host
import Warehouse.Number.Unsigned
import Warehouse.Settings.Variables

namespace Warehouse.Command

/-! ### Files -/

/-- The directories from the root to a file, and its name. -/
abbrev Path := List String

/-- Files with their texts, and directories. -/
structure Disk where
  files : List (Path × String)
  directories : List Path
deriving DecidableEq, Repr

namespace Disk

/-- The path that a text means: points stand for the directory itself and for the one it is in. -/
def resolve (home : Path) (text : String) : Path :=
  let parts := (Text.splitWhere (· = '/') text.toList).map String.ofList
  let start := if text.startsWith "/" then [] else home
  parts.foldl (fun path part =>
    if part.isEmpty ∨ part = "." then path else if part = ".." then path.dropLast
      else path ++ [part]) start

/-- The text of a file. -/
def file? (d : Disk) (p : Path) : Option String := d.files.lookup p

/-- Whether there is a directory. The root always is one. -/
def hasDirectory (d : Disk) (p : Path) : Bool := p.isEmpty || d.directories.contains p

/-- Whether a directory on the way to `p` is a file instead. -/
def isUnderFile (d : Disk) (p : Path) : Bool :=
  (List.range p.length).any fun n => (d.file? (p.take n)).isSome

/-- Why nothing is found at a path. -/
def absence (d : Disk) (p : Path) : FileError :=
  if d.isUnderFile p then .notDirectory else .notFound

/-- The text of the file at a path. -/
def read (d : Disk) (p : Path) : Except FileError String :=
  match d.file? p with
  | some text => .ok text
  | none => .error (if d.hasDirectory p then .isDirectory else d.absence p)

/-- The disk with a file that has that text. Its directory has to be there. -/
def write (d : Disk) (p : Path) (text : String) : Except FileError Disk :=
  if d.hasDirectory p then .error .isDirectory
  else if d.hasDirectory p.dropLast then
    .ok { d with files := d.files.filter (fun f => f.1 ≠ p) ++ [(p, text)] }
  else .error (d.absence p)

/-- The disk with a text added to the file at a path. -/
def append (d : Disk) (p : Path) (text : String) : Except FileError Disk :=
  d.write p ((d.file? p).getD "" ++ text)

/-- The disk with a directory, and those that it is in. -/
def createDirectories (d : Disk) (p : Path) : Except FileError Disk :=
  if (d.file? p).isSome then .error .alreadyThere
  else if d.isUnderFile p then .error .notDirectory
  else
    let all := (List.range (p.length + 1)).map p.take
    .ok { d with directories := d.directories ++ all.filter fun q => ! d.hasDirectory q }

/-- The disk that holds those files and the directories that they are in. -/
def ofFiles (files : List (Path × String)) : Disk :=
  let parents := files.flatMap fun (p, _) => (List.range p.length).map p.take
  ⟨files, parents.eraseDups⟩

end Disk

/-! ### The machine -/

/-- A machine in memory. What it printed and reported is kept as text. -/
structure Memory where
  disk : Disk
  home : Path
  environment : Environment
  now : Timestamp
  idsGiven : Nat
  printed : String
  reported : String

namespace Memory

/-- A machine on which nothing has run yet. Its home directory is there. -/
def fresh (disk : Disk) (home : Path) (environment : Environment) (now : Timestamp) : Memory :=
  ⟨(disk.createDirectories home).toOption.getD disk, home, environment, now, 0, "", ""⟩

/-- The `n`-th fresh name, in the form of a random identifier. -/
def nthId (n : Nat) : String := "00000000-0000-4000-8000-" ++ Number.padded 12 n

/-- Whether a text can be a path. -/
def pathFault? (path : String) : Option FileError :=
  if path.isEmpty then some .notFound
  else if path.toList.contains '\x00' then
    some (.other "file name contained an unexpected NUL byte")
  else none

/-- Changes the disk, unless the change is refused. -/
def change (path : String) (f : Disk → Path → Except FileError Disk) :
    StateM Memory (Except FileError Unit) :=
  fun s =>
    match pathFault? path with
    | some e => (.error e, s)
    | none =>
      match f s.disk (Disk.resolve s.home path) with
      | .ok disk => (.ok (), { s with disk })
      | .error e => (.error e, s)

/-- The machine as one that commands can run on. -/
def host : Host (StateM Memory) where
  read path := fun s =>
    match pathFault? path with
    | some e => (.error e, s)
    | none => (s.disk.read (Disk.resolve s.home path), s)
  write path text := change path fun d p => d.write p text
  append path text := change path fun d p => d.append p text
  createDirectories path := change path Disk.createDirectories
  isThere path := fun s =>
    let p := Disk.resolve s.home path
    ((pathFault? path).isNone && ((s.disk.file? p).isSome || s.disk.hasDirectory p), s)
  variableValue name := fun s => (s.environment name, s)
  freshId := fun s => (nthId s.idsGiven, { s with idsGiven := s.idsGiven + 1 })
  now := fun s => (s.now, s)
  clockMs := fun s => (0, s)
  print text := fun s => ((), { s with printed := s.printed ++ text ++ "\n" })
  report text := fun s => ((), { s with reported := s.reported ++ text ++ "\n" })

end Memory

end Warehouse.Command
