import Workflow.Text.Digits
import Workflow.Yaml.Cursor

/-! Tags, anchors and directives as they are written. A tag is a handle with a suffix; the handle
is an abbreviation that a directive may define. -/

namespace Workflow.Yaml

namespace Tag

def isUriMark (c : Char) : Bool :=
  c ∈ [';', '/', '?', ':', '@', '&', '=', '+', '$', '.', '%', '!', '~', '*', '\'', '(', ')']

def isVerbatimMark (c : Char) : Bool :=
  c = ',' || c = '[' || c = ']'

/-- The bytes of a percent escape at the front. -/
def escapedByte? (cursor : Cursor) : Option (Nat × Cursor) := do
  if !cursor.sees '%' then none
  let (digits, _) ← Text.takeExact 2 (cursor.chars.drop 1)
  some (Text.ofDigits 16 (← digits.mapM Text.hexDigit?), cursor.advance 3)

/-- How many bytes a character takes, by the first of them. -/
def encodedLength? (byte : Nat) : Option Nat :=
  if byte < 0x80 then some 1
  else if 0xC0 ≤ byte ∧ byte < 0xE0 then some 2
  else if 0xE0 ≤ byte ∧ byte < 0xF0 then some 3
  else if 0xF0 ≤ byte ∧ byte < 0xF8 then some 4
  else none

def followingBytes? : Nat → Nat → Cursor → Option (Nat × Cursor)
  | 0, code, cursor => some (code, cursor)
  | count + 1, code, cursor => do
    let (byte, cursor) ← escapedByte? cursor
    if 0x80 ≤ byte ∧ byte < 0xC0 then followingBytes? count (code * 64 + byte % 64) cursor
    else none

/-- A character written as percent escapes of its bytes. -/
def escaped? (cursor : Cursor) : Option (Char × Cursor) := do
  let (byte, cursor) ← escapedByte? cursor
  let length ← encodedLength? byte
  let lead := if length = 1 then byte else byte % Nat.pow 2 (7 - length)
  let (code, cursor) ← followingBytes? (length - 1) lead cursor
  some (Char.ofNat code, cursor)

/-- The characters of a tag after its handle, in reverse before `text`. -/
def uriChars (verbatim : Bool) : Nat → List Char → Cursor → Option (List Char × Cursor)
  | 0, text, cursor => some (text, cursor)
  | fuel + 1, text, cursor =>
    match cursor.peek? with
    | none => some (text, cursor)
    | some c =>
      if c = '%' then do
        let (c, cursor) ← escaped? cursor
        uriChars verbatim fuel (c :: text) cursor
      else if isWord c ∨ isUriMark c ∨ (verbatim ∧ isVerbatimMark c) then
        uriChars verbatim fuel (c :: text) (cursor.advance 1)
      else some (text, cursor)

/-- Reads what follows `head`, of which the first character is not kept. Something must be there,
the head counted. -/
def uri? (verbatim : Bool) (head : List Char) (cursor : Cursor) : Option (List Char × Cursor) := do
  let (text, after) ← uriChars verbatim (cursor.chars.length + 1) [] cursor
  if head.isEmpty ∧ text.isEmpty then none
  else some (head.drop 1 ++ text.reverse, after)

/-- Reads a handle: a mark, a word, and a second mark where there is one. A directive takes only
a whole handle or the mark alone. -/
def handle? (directive : Bool) (cursor : Cursor) : Option (List Char × Cursor) :=
  if cursor.sees '!' then
    let (word, after) := (cursor.advance 1).takeWhile isWord
    if after.sees '!' then some ('!' :: word ++ ['!'], after.advance 1)
    else if directive ∧ !word.isEmpty then none
    else some ('!' :: word, after)
  else none

/-- The handle and the suffix of the tag that is next. -/
def parts? (cursor : Cursor) : Option (List Char × List Char × Cursor) :=
  if cursor.seesAt 1 '<' then do
    let (suffix, after) ← uri? true [] (cursor.advance 2)
    if after.sees '>' then some ([], suffix, after.advance 1) else none
  else do
    let (handle, after) ← handle? false cursor
    if 1 < handle.length ∧ handle.getLast? = some '!' then
      let (suffix, after) ← uri? false [] after
      some (handle, suffix, after)
    else
      let (suffix, after) ← uri? false handle after
      if suffix.isEmpty then some ([], ['!'], after) else some (['!'], suffix, after)

/-- Reads a tag up to the blank after it; inside brackets a comma does as well. -/
def read? (flow : Bool) (cursor : Cursor) : Option (String × String × Cursor) := do
  let (handle, suffix, after) ← parts? cursor
  if after.endsAt 0 ∨ (flow ∧ after.sees ',') then
    some (String.ofList handle, String.ofList suffix, after)
  else none

end Tag

namespace Anchor

def canFollow (c : Char) : Bool :=
  c ∈ ['?', ':', ',', ']', '}', '%', '@', '\x60']

/-- The name after the mark of an anchor or an alias. -/
def read? (cursor : Cursor) : Option (String × Cursor) :=
  let (name, after) := (cursor.advance 1).takeWhile isWord
  if name.isEmpty then none
  else if after.endsAt 0 ∨ after.peek?.any canFollow then some (String.ofList name, after)
  else none

end Anchor

inductive Directive where
  | version (major minor : Nat)
  | tag (handle expansion : String)
deriving DecidableEq, Repr

namespace Directive

def number? (cursor : Cursor) : Option (Nat × Cursor) := do
  let (digits, after) := cursor.takeWhile Char.isDigit
  if 9 < digits.length then none else some (← Text.natural? digits, after)

def version? (cursor : Cursor) : Option (Directive × Cursor) := do
  let (major, cursor) ← number? cursor.skipBlanks
  if !cursor.sees '.' then none
  let (minor, cursor) ← number? (cursor.advance 1)
  some (version major minor, cursor)

def tag? (cursor : Cursor) : Option (Directive × Cursor) := do
  let (handle, cursor) ← Tag.handle? true cursor.skipBlanks
  if !cursor.atBlank then none
  let (expansion, cursor) ← Tag.uri? true [] cursor.skipBlanks
  if !cursor.endsAt 0 then none
  some (tag (String.ofList handle) (String.ofList expansion), cursor)

/-- Reads the directive whose mark is next, with the rest of its line. -/
def read? (cursor : Cursor) : Option (Directive × Cursor) := do
  let (name, cursor) := (cursor.advance 1).takeWhile isWord
  if name.isEmpty ∨ !cursor.endsAt 0 then none
  let (directive, cursor) ←
    if name = "YAML".toList then version? cursor
    else if name = "TAG".toList then tag? cursor
    else none
  let cursor := cursor.skipBlanks.skipComment
  if !cursor.atBreakOrEnd then none
  some (directive, cursor.newline.2)

end Directive

end Workflow.Yaml
