/-
Module: Warehouse.Json.Quoted
Purpose: Reading strings. One that is asked for has to stand for characters, so its surrogates come
  in pairs; one that is passed over only has to be spelled correctly.
Trusted boundary: none
Main exports: Reader.quoted, Reader.passQuoted
-/
import Warehouse.Json.Reader
import Warehouse.Number.Unsigned
import Warehouse.Text.Bytes

namespace Warehouse.Json

open Number (hexDigit?)

/-! ### Escapes -/

/-- The character that a letter after a backslash stands for. -/
def simpleEscape? (c : Char) : Option Char :=
  match c with
  | '"' => some '"'
  | '\\' => some '\\'
  | '/' => some '/'
  | 'b' => some (Char.ofNat 8)
  | 'f' => some (Char.ofNat 12)
  | 'n' => some '\n'
  | 'r' => some '\r'
  | 't' => some '\t'
  | _ => none

/-- The number that four hexadecimal digits give. A text that has fewer than four bytes left is
truncated, whatever they are. -/
def hexEscape (s : List Char) : Except Failure (Nat × List Char) :=
  if Text.byteLength (s.take 4) < 4 then .error .truncated
  else
    match s with
    | a :: b :: c :: d :: rest =>
      match hexDigit? a, hexDigit? b, hexDigit? c, hexDigit? d with
      | some a, some b, some c, some d => .ok (((a * 16 + b) * 16 + c) * 16 + d, rest)
      | _, _, _, _ => .error .malformed
    | _ => .error .malformed

/-- Whether a number is the second half of a surrogate pair. -/
def isTrailing (n : Nat) : Bool := 0xDC00 ≤ n && n < 0xE000

/-- Whether a number is the first half of a surrogate pair. -/
def isLeading (n : Nat) : Bool := 0xD800 ≤ n && n < 0xDC00

/-- The second half of a surrogate pair, which has to come next. -/
def trailingEscape (s : List Char) : Except Failure (Nat × List Char) :=
  match s with
  | [] | ['\\'] => .error .truncated
  | '\\' :: 'u' :: rest => do
    let (n, rest) ← hexEscape rest
    if isTrailing n then .ok (n, rest) else .error .malformed
  | _ => .error .malformed

/-- The character of an escape that begins after `\u`. -/
def unicodeEscape (s : List Char) : Except Failure (Char × List Char) := do
  let (n, rest) ← hexEscape s
  if isTrailing n then .error .malformed
  else if isLeading n then
    let (m, rest) ← trailingEscape rest
    .ok (Char.ofNat (0x10000 + (n - 0xD800) * 1024 + (m - 0xDC00)), rest)
  else .ok (Char.ofNat n, rest)

/-- The character of an escape that begins after its backslash. -/
def escape (s : List Char) : Except Failure (Char × List Char) :=
  match s with
  | [] => .error .truncated
  | 'u' :: rest => unicodeEscape rest
  | c :: rest =>
    match simpleEscape? c with
    | some c => .ok (c, rest)
    | none => .error .malformed

/-- Passes over an escape from after its backslash. Any four digits will do. -/
def passEscape (s : List Char) : Except Failure (List Char) :=
  match s with
  | [] => .error .truncated
  | 'u' :: rest => (hexEscape rest).map Prod.snd
  | c :: rest => if (simpleEscape? c).isSome then .ok rest else .error .malformed

theorem length_hexEscape_le {s rest : List Char} {n : Nat} (h : hexEscape s = .ok (n, rest)) :
    rest.length ≤ s.length := by
  unfold hexEscape at h
  split at h
  · cases h
  · split at h
    · split at h
      · cases h
        simp only [List.length_cons]
        omega
      · cases h
    · cases h

theorem length_trailingEscape_le {s rest : List Char} {n : Nat}
    (h : trailingEscape s = .ok (n, rest)) : rest.length ≤ s.length := by
  unfold trailingEscape at h
  split at h
  · cases h
  · cases h
  · rename_i behind
    cases hx : hexEscape behind with
    | error e => simp [hx, bind, Except.bind] at h
    | ok r =>
      have := length_hexEscape_le hx
      simp only [hx, bind, Except.bind] at h
      split at h
      · cases h
        simp only [List.length_cons]
        omega
      · cases h
  · cases h

theorem length_unicodeEscape_le {s rest : List Char} {c : Char}
    (h : unicodeEscape s = .ok (c, rest)) : rest.length ≤ s.length := by
  unfold unicodeEscape at h
  cases hx : hexEscape s with
  | error e => simp [hx, bind, Except.bind] at h
  | ok r =>
    have hr := length_hexEscape_le hx
    simp only [hx, bind, Except.bind] at h
    split at h
    · cases h
    · split at h
      · cases hy : trailingEscape r.2 with
        | error e => simp [hy] at h
        | ok q =>
          have := length_trailingEscape_le hy
          simp only [hy, Except.ok.injEq, Prod.mk.injEq] at h
          obtain ⟨_, rfl⟩ := h
          omega
      · simp only [Except.ok.injEq, Prod.mk.injEq] at h
        obtain ⟨_, rfl⟩ := h
        exact hr

theorem length_escape_le {s rest : List Char} {c : Char} (h : escape s = .ok (c, rest)) :
    rest.length ≤ s.length := by
  unfold escape at h
  split at h
  · cases h
  · have := length_unicodeEscape_le h
    simp only [List.length_cons]
    omega
  · split at h
    · cases h
      simp
    · cases h

theorem length_passEscape_le {s rest : List Char} (h : passEscape s = .ok rest) :
    rest.length ≤ s.length := by
  unfold passEscape at h
  split at h
  · cases h
  · rename_i behind
    cases hx : hexEscape behind with
    | error e => simp [hx, Except.map] at h
    | ok r =>
      have := length_hexEscape_le hx
      simp only [hx, Except.map] at h
      cases h
      simp only [List.length_cons]
      omega
  · split at h
    · cases h
      simp
    · cases h

/-! ### Strings -/

/-- The characters of a string up to its closing quote, put behind those in `acc`, which are in
reverse. -/
def stringBody (acc s : List Char) : Except Failure (List Char × List Char) :=
  match s with
  | [] => .error .truncated
  | '"' :: rest => .ok (acc.reverse, rest)
  | '\\' :: rest =>
    match _ : escape rest with
    | .ok (c, behind) => stringBody (c :: acc) behind
    | .error e => .error e
  | c :: rest => if c.toNat < 32 then .error .malformed else stringBody (c :: acc) rest
termination_by s.length
decreasing_by
  · rename_i h
    have := length_escape_le h
    simp only [List.length_cons]
    omega
  · simp

/-- Passes over the inside of a string and its closing quote. -/
def passStringBody (s : List Char) : Except Failure (List Char) :=
  match s with
  | [] => .error .truncated
  | '"' :: rest => .ok rest
  | '\\' :: rest =>
    match _ : passEscape rest with
    | .ok behind => passStringBody behind
    | .error e => .error e
  | c :: rest => if c.toNat < 32 then .error .malformed else passStringBody rest
termination_by s.length
decreasing_by
  · rename_i h
    have := length_passEscape_le h
    simp only [List.length_cons]
    omega
  · simp

namespace Reader

/-- Reads a string behind its opening quote. -/
def quoted : Reader String :=
  fun s => (stringBody [] s).map fun (cs, rest) => (String.ofList cs, rest)

/-- Passes over a string behind its opening quote. -/
def passQuoted : Reader Unit := fun s => (passStringBody s).map fun rest => ((), rest)

end Reader

end Warehouse.Json
