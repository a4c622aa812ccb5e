import Workflow.Text.Digits

/-! Bytes read as UTF-8. Bytes that are no character are broken up into the longest beginnings of
characters, so that each of them can be told apart and replaced. -/

namespace Workflow.Text

/-- What bytes begin with: a character, or bytes that begin one and do not go on as one. The bytes
are incomplete where they might have gone on as a character but end. -/
inductive Utf8Unit where
  | char (value : Char) (size : Nat)
  | broken (size : Nat) (incomplete : Bool)
deriving DecidableEq, Repr

namespace Utf8Unit

def size : Utf8Unit → Nat
  | char _ size => size
  | broken size _ => size

/-- The bits of a first byte, the number of bytes to follow and the range of the next one. -/
def lead? (first : UInt8) : Option (Nat × Nat × Nat × Nat) :=
  let code := first.toNat
  if code < 0x80 then some (code, 0, 0x80, 0xBF)
  else if code < 0xC2 then none
  else if code < 0xE0 then some (code - 0xC0, 1, 0x80, 0xBF)
  else if code = 0xE0 then some (0, 2, 0xA0, 0xBF)
  else if code = 0xED then some (0xD, 2, 0x80, 0x9F)
  else if code < 0xF0 then some (code - 0xE0, 2, 0x80, 0xBF)
  else if code = 0xF0 then some (0, 3, 0x90, 0xBF)
  else if code < 0xF4 then some (code - 0xF0, 3, 0x80, 0xBF)
  else if code = 0xF4 then some (4, 3, 0x80, 0x8F)
  else none

/-- Takes the bytes that follow a first one; `size` bytes are taken already. -/
def follow (value size low high : Nat) : Nat → List UInt8 → Utf8Unit
  | 0, _ => .char (Char.ofNat value) size
  | _ + 1, [] => .broken size true
  | missing + 1, next :: rest =>
    if low ≤ next.toNat ∧ next.toNat ≤ high then
      follow (value * 64 + next.toNat % 64) (size + 1) 0x80 0xBF missing rest
    else .broken size false

def ofBytes (first : UInt8) (rest : List UInt8) : Utf8Unit :=
  match lead? first with
  | some (value, missing, low, high) => follow value 1 low high missing rest
  | none => .broken 1 false

end Utf8Unit

def utf8Units : List UInt8 → List Utf8Unit
  | [] => []
  | first :: rest =>
    let found := Utf8Unit.ofBytes first rest
    found :: utf8Units (rest.drop (found.size - 1))
termination_by bytes => bytes.length
decreasing_by simp only [List.length_drop, List.length_cons]; omega

/-- Where bytes stop being text. -/
structure Utf8Fault where
  index : Nat
  size : Nat
  incomplete : Bool
deriving DecidableEq, Repr

def Utf8Fault.text (fault : Utf8Fault) : String :=
  let index := String.ofList (decimal fault.index)
  if fault.incomplete then "incomplete utf-8 byte sequence from index " ++ index
  else "invalid utf-8 sequence of " ++ String.ofList (decimal fault.size) ++
    " bytes from index " ++ index

/-- The characters of units that begin at an index, or the first fault among them. -/
def charsOfUnits (index : Nat) : List Utf8Unit → Except Utf8Fault (List Char)
  | [] => .ok []
  | .char value size :: rest => (charsOfUnits (index + size) rest).map (value :: ·)
  | .broken size incomplete :: _ => .error ⟨index, size, incomplete⟩

def decodeUtf8 (bytes : List UInt8) : Except Utf8Fault (List Char) :=
  charsOfUnits 0 (utf8Units bytes)

/-- Reads bytes with a replacement character for whatever is no character. -/
def decodeUtf8Lossy (bytes : List UInt8) : List Char :=
  (utf8Units bytes).map fun
    | .char value _ => value
    | .broken .. => '\uFFFD'

end Workflow.Text
