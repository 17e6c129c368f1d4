/-
Module: Warehouse.Main
Purpose: The program: the commands, on the machine that it is started on. Nothing is decided here;
  files, the environment, the clock and the source of random bytes are handed to the commands as
  they are.
Trusted boundary: the machine (its files, variables, clock and random bytes)
Main exports: main
-/
import Std.Time.DateTime.Timestamp
import Warehouse.Command.Program

namespace Warehouse.Command

/-- The machine's report of why a file cannot be used. A number that stands for its own negative is
an error number as well. -/
def FileError.ofSystem (e : IO.Error) : FileError :=
  let numbered (code : UInt32) (details : String) : FileError :=
    let number := if code < 0x80000000 then code else 0 - code
    if number = 2 then .notFound
    else if number = 17 then .alreadyThere
    else if number = 20 then .notDirectory
    else if number = 21 then .isDirectory
    else .other s!"{details} (os error {number})"
  match e with
  | .noFileOrDirectory _ code details => numbered code details
  | .alreadyExists _ code details => numbered code details
  | .inappropriateType _ code details => numbered code details
  | .permissionDenied _ code details => numbered code details
  | .resourceExhausted _ code details => numbered code details
  | .invalidArgument _ code details => numbered code details
  | .noSuchThing _ code details => numbered code details
  | .resourceBusy code details => numbered code details
  | .otherError code details => numbered code details
  | e => .other (toString e)

/-- An action on files, with the report of its failure. -/
def tryFile {α : Type} (action : IO α) : IO (Except FileError α) := do
  match ← action.toBaseIO with
  | .ok a => return .ok a
  | .error e => return .error (.ofSystem e)

/-- The identifier that sixteen random bytes give: the version is four, and the variant the usual
one. -/
def identifier (bytes : ByteArray) : String :=
  let digits := bytes.data.toList.flatMap fun b => [b.toNat / 16, b.toNat % 16]
  let digits := (digits.set 12 4).set 16 (8 + digits[16]?.getD 0 % 4)
  let group (start size : Nat) : String :=
    String.ofList (((digits.drop start).take size).map Nat.digitChar)
  "-".intercalate [group 0 8, group 8 4, group 12 4, group 16 4, group 20 12]

/-- The machine that the program is started on. -/
def thisMachine : Host IO where
  read path := do
    match ← tryFile (IO.FS.readBinFile path) with
    | .error e => return .error e
    | .ok bytes =>
      match String.fromUTF8? bytes with
      | some text => return .ok text
      | none => return .error (.other "stream did not contain valid UTF-8")
  write path text := tryFile (IO.FS.writeFile path text)
  append path text := tryFile (IO.FS.withFile path .append fun h => h.putStr text)
  createDirectories path := tryFile (IO.FS.createDirAll path)
  isThere path := do
    match ← (IO.FS.realPath path).toBaseIO with
    | .ok _ => return true
    | .error _ => return false
  variableValue name := IO.getEnv name
  freshId := do return identifier (← IO.getRandomBytes 16)
  now := do
    let elapsed := (← Std.Time.Timestamp.now).toNanosecondsSinceUnixEpoch.val
    return Timestamp.ofUnix (elapsed / 1000000000) (elapsed % 1000000000).toNat
  clockMs := IO.monoMsNow
  print text := IO.println text
  report text := IO.eprintln text

end Warehouse.Command

/-- Carries out a command line. -/
def main (arguments : List String) : IO UInt32 :=
  Warehouse.Command.runCommand Warehouse.Command.thisMachine arguments
