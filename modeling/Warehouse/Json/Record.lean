/-
Module: Warehouse.Json.Record
Purpose: Reading records. The fields are read in whatever order they are written in. One that is
  given twice is noticed at its second key, one that is missing at the end of the record. A record
  may also be written as the list of its fields' values, in their order and without their names.
Trusted boundary: none
Main exports: Fields, Fields.required, Fields.optional, Decoder.object, Decoder.record
-/
import Warehouse.Json.Decoder

namespace Warehouse.Json

/-- A reader of some fields of a record. What has been read so far is its state. -/
structure Fields (α : Type) where
  State : Type
  start : State
  /-- The names of the fields in their order. -/
  names : List String
  /-- Reads the value of one of the fields. -/
  read : String → State → Decoder State
  /-- What the fields give in the end. Whether they were written with their names can matter for one
  that is missing. -/
  finish : (named : Bool) → State → Except Failure α

namespace Fields

/-- Applies a function to what the fields give. -/
def map {α β : Type} (f : α → β) (x : Fields α) : Fields β :=
  { State := x.State
    start := x.start
    names := x.names
    read := x.read
    finish := fun named state => (x.finish named state).map f }

/-- The fields of both, in their order, and what the first give applied to what the second give. -/
def andThen {α β : Type} (f : Fields (α → β)) (x : Fields α) : Fields β :=
  { State := f.State × x.State
    start := (f.start, x.start)
    names := f.names ++ x.names
    read := fun name (first, second) => do
      if f.names.contains name then return (← f.read name first, second)
      else return (first, ← x.read name second)
    finish := fun named (first, second) => do
      let g ← f.finish named first
      let a ← x.finish named second
      return g a }

/-- Readers of fields are combined with `<$>` and `<*>`. -/
instance : Functor Fields where
  map := Fields.map

instance : Seq Fields where
  seq f x := andThen f (x ())

/-- One field, and what a record has that lacks it. -/
def field {α : Type} (name : String) (d : Decoder α) (missing : Bool → Except Failure α) :
    Fields α :=
  { State := Option α
    start := none
    names := [name]
    read := fun _ _ => some <$> d
    finish := fun named state =>
      match state with
      | some a => .ok a
      | none => missing named }

/-- A field that has to be there. -/
def required {α : Type} (name : String) (d : Decoder α) : Fields α :=
  field name d fun _ => .error .shape

/-- A field that gives `value` where it is missing. -/
def optional {α : Type} (name : String) (value : α) (d : Decoder α) : Fields α :=
  field name d fun _ => .ok value

/-- A field that may be `null`, and may be missing where the fields have their names. -/
def nullable {α : Type} (name : String) (d : Decoder α) : Fields (Option α) :=
  field name (Decoder.nullable d) fun named => if named then .ok none else .error .shape

/-- Reads what follows the key of a member. The names of the fields that have been read are kept
with their state, because a field can be given once only. A member that is no field is read with
`other`. -/
def member {α : Type} (fields : Fields α) (other : Decoder Unit) (name : String)
    (seen : List String) (state : fields.State) : Decoder (List String × fields.State) := do
  if fields.names.contains name then
    if seen.contains name then throw .shape
    Reader.expect ':'
    return (name :: seen, ← fields.read name state)
  else
    Reader.expect ':'
    other
    return (seen, state)

/-- Reads the values of the fields in their order from behind the opening bracket of an array or a
value in it. There may be fewer values than fields. -/
def values {α : Type} (fields : Fields α) :
    List String → (first : Bool) → fields.State → Decoder fields.State
  | [], _, state => return state
  | name :: rest, first, state => do
    match ← Reader.peek, first with
    | some ']', _ => return state
    | none, _ => throw .truncated
    | some _, true => fields.values rest false (← fields.read name state)
    | some ',', false =>
      Reader.advance
      fields.values rest false (← fields.read name state)
    | some _, false => throw .malformed

end Fields

namespace Decoder

open Reader (peek advance expect)

/-- A record that is written as an object. Members that are none of its fields are read with
`other`. -/
def object {α : Type} (other : Decoder Unit) (fields : Fields α) : Decoder α := do
  match ← peek with
  | some '\x7b' => nested do
    advance
    let (_, state) ← fun b => Reader.foldMembers b.size Reader.key
      (fun name (seen, state) => fields.member other name seen state b) ([], fields.start)
    (fields.finish true state : Except Failure α)
  | _ => Reader.unexpected

/-- A record that is written as the list of its fields' values. -/
def tuple {α : Type} (fields : Fields α) : Decoder α := nested do
  expect '['
  let state ← fields.values fields.names true fields.start
  let a ← (fields.finish false state : Except Failure α)
  expect ']'
  return a

/-- A record, as an object or as the list of its fields' values. -/
def record {α : Type} (fields : Fields α) : Decoder α := do
  match ← peek with
  | some '[' => tuple fields
  | _ => object ignore fields

end Decoder

end Warehouse.Json
