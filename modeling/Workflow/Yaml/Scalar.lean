import Workflow.Text.Digits
import Workflow.Yaml.Cursor

/-! Scalars as they are written: plain, in single or double quotes, or as a block. Line breaks
inside a scalar are folded: one becomes a space, and of more the first is dropped. -/

namespace Workflow.Yaml

inductive Style where
  | plain
  | quoted
  | literal
  | folded
deriving DecidableEq, Repr

/-- Blanks and line breaks between two words of a scalar. -/
structure Gap where
  spaces : List Char := []
  firstBreak : List Char := []
  laterBreaks : List Char := []
  broken : Bool := false

namespace Gap

def isEmpty (gap : Gap) : Bool :=
  gap.spaces.isEmpty && !gap.broken

def text (gap : Gap) : List Char :=
  if gap.broken then
    if gap.firstBreak = ['\n'] then
      if gap.laterBreaks.isEmpty then [' '] else gap.laterBreaks
    else
      gap.firstBreak ++ gap.laterBreaks
  else
    gap.spaces

/-- Reads blanks and breaks; a tab before column `indent` of a new line is refused. -/
def read (indent : Nat) : Nat → Gap → Cursor → Option (Gap × Cursor)
  | 0, gap, cursor => some (gap, cursor)
  | fuel + 1, gap, cursor =>
    match cursor.peek? with
    | none => some (gap, cursor)
    | some c =>
      if isBlankSpace c then
        if gap.broken then
          if c = '\t' ∧ cursor.column < indent then none
          else read indent fuel gap (cursor.advance 1)
        else
          read indent fuel { gap with spaces := gap.spaces ++ [c] } (cursor.advance 1)
      else if isBreak c then
        let (text, cursor) := cursor.newline
        if gap.broken then
          read indent fuel { gap with laterBreaks := gap.laterBreaks ++ text } cursor
        else
          read indent fuel { gap with spaces := [], firstBreak := text, broken := true } cursor
      else
        some (gap, cursor)

end Gap

namespace Scalar

/-! Plain scalars. -/

def isFlowMark (c : Char) : Bool :=
  c = ',' || c = '[' || c = ']' || c = '{' || c = '}'

/-- A colon that ends a plain scalar, or a mark that does so inside brackets. -/
def endsPlain (flow : Bool) (cursor : Cursor) (c : Char) : Bool :=
  (c = ':' && cursor.endsAt 1) || (flow && isFlowMark c)

/-- A colon before a mark inside brackets, which is refused. -/
def clashes (flow : Bool) (cursor : Cursor) (c : Char) : Bool :=
  flow && c = ':' && (cursor.peekAt? 1).any fun next => isFlowMark next || next = '?'

/-- One word of a plain scalar, with its characters in reverse before `text`. -/
def plainWord (flow : Bool) : Nat → List Char → Cursor → Option (List Char × Cursor)
  | 0, text, cursor => some (text, cursor)
  | fuel + 1, text, cursor =>
    match cursor.peek? with
    | none => some (text, cursor)
    | some c =>
      if isBlankSpace c ∨ isBreak c then some (text, cursor)
      else if clashes flow cursor c then none
      else if endsPlain flow cursor c then some (text, cursor)
      else plainWord flow fuel (c :: text) (cursor.advance 1)

structure Plain where
  text : List Char
  cursor : Cursor
  /-- The scalar was left across a line break. -/
  broken : Bool

/-- Words with gaps between them. `gap` is what was met before the next word. -/
def plainWords (flow : Bool) (indent : Nat) : Nat → List Char → Gap → Cursor → Option Plain
  | 0, text, gap, cursor => some ⟨text, cursor, gap.broken⟩
  | fuel + 1, text, gap, cursor =>
    if cursor.atDocumentMarker ∨ cursor.sees '#' then some ⟨text, cursor, gap.broken⟩
    else do
      let (word, after) ← plainWord flow (cursor.chars.length + 1) [] cursor
      let (text, gap) :=
        if word.isEmpty then (text, gap) else (word ++ gap.text.reverse ++ text, {})
      if after.atBlank ∨ after.atBreak then
        let (gap, last) ← Gap.read indent (after.chars.length + 1) gap after
        if !flow ∧ last.column < indent then some ⟨text, last, gap.broken⟩
        else plainWords flow indent fuel text gap last
      else
        some ⟨text, after, gap.broken⟩

/-- Reads a plain scalar that continues on lines of at least `indent` columns. The flag says
whether it was left across a line break. -/
def plain? (flow : Bool) (indent : Nat) (cursor : Cursor) : Option (String × Bool × Cursor) := do
  let read ← plainWords flow indent (cursor.chars.length + 1) [] {} cursor
  some (String.ofList read.text.reverse, read.broken, read.cursor)

/-! Quoted scalars. -/

def simpleEscape? (c : Char) : Option Char :=
  [('0', '\x00'), ('a', '\x07'), ('b', '\x08'), ('t', '\t'), ('\t', '\t'), ('n', '\n'),
    ('v', '\x0b'), ('f', '\x0c'), ('r', '\r'), ('e', '\x1b'), (' ', ' '), ('"', '"'), ('/', '/'),
    ('\\', '\\'), ('N', '\u0085'), ('_', '\u00a0'), ('L', '\u2028'), ('P', '\u2029')].lookup c

def codeLength? (c : Char) : Option Nat :=
  [('x', 2), ('u', 4), ('U', 8)].lookup c

/-- The character of an escape whose backslash is next. -/
def escape? (cursor : Cursor) : Option (Char × Cursor) := do
  let letter ← cursor.peekAt? 1
  match simpleEscape? letter with
  | some c => some (c, cursor.advance 2)
  | none =>
    let length ← codeLength? letter
    let (digits, _) ← Text.takeExact length (cursor.chars.drop 2)
    let code := Text.ofDigits 16 (← digits.mapM Text.hexDigit?)
    if (0xD800 ≤ code ∧ code ≤ 0xDFFF) ∨ 0x10FFFF < code then none
    else some (Char.ofNat code, cursor.advance (2 + length))

/-- One word of a quoted scalar, in reverse before `text`. The flag says that it ended at an
escaped line break. -/
def quotedWord (single : Bool) : Nat → List Char → Cursor → Option (List Char × Bool × Cursor)
  | 0, text, cursor => some (text, false, cursor)
  | fuel + 1, text, cursor =>
    match cursor.peek? with
    | none => some (text, false, cursor)
    | some c =>
      if isBlankSpace c ∨ isBreak c then some (text, false, cursor)
      else if single ∧ c = '\'' ∧ cursor.seesAt 1 '\'' then
        quotedWord single fuel ('\'' :: text) (cursor.advance 2)
      else if c = (if single then '\'' else '"') then some (text, false, cursor)
      else if !single ∧ c = '\\' then
        if (cursor.peekAt? 1).any isBreak then some (text, true, ((cursor.advance 1).newline).2)
        else do
          let (escaped, cursor) ← escape? cursor
          quotedWord single fuel (escaped :: text) cursor
      else quotedWord single fuel (c :: text) (cursor.advance 1)

def quotedWords (single : Bool) : Nat → List Char → Cursor → Option (List Char × Cursor)
  | 0, _, _ => none
  | fuel + 1, text, cursor =>
    if cursor.atDocumentMarker ∨ cursor.atEnd then none
    else do
      let (text, escapedBreak, cursor) ← quotedWord single (cursor.chars.length + 1) text cursor
      if cursor.sees (if single then '\'' else '"') then some (text, cursor.advance 1)
      else
        let (gap, cursor) ← Gap.read 0 (cursor.chars.length + 1) { broken := escapedBreak } cursor
        quotedWords single fuel (gap.text.reverse ++ text) cursor

/-- Reads a scalar whose opening quote is next. -/
def quoted? (single : Bool) (cursor : Cursor) : Option (String × Cursor) := do
  let (text, cursor) ← quotedWords single (cursor.chars.length + 1) [] (cursor.advance 1)
  some (String.ofList text.reverse, cursor)

/-! Block scalars. -/

inductive Chomping where
  | strip
  | clip
  | keep
deriving DecidableEq

def chomping? (cursor : Cursor) : Option Chomping :=
  if cursor.sees '+' then some .keep else if cursor.sees '-' then some .strip else none

/-- The indentation a header asks for. Zero is refused. -/
def increment? (cursor : Cursor) : Option (Option (Nat × Cursor)) :=
  match cursor.peek? with
  | some c =>
    match Text.decimalDigit? c with
    | some 0 => none
    | some digit => some (some (digit, cursor.advance 1))
    | none => some none
  | none => some none

/-- The header of a block: how it ends and how far it is indented, in either order. -/
def header? (cursor : Cursor) : Option (Chomping × Option Nat × Cursor) := do
  match chomping? cursor with
  | some chomping =>
    let cursor := cursor.advance 1
    match ← increment? cursor with
    | some (digit, cursor) => some (chomping, some digit, cursor)
    | none => some (chomping, none, cursor)
  | none =>
    match ← increment? cursor with
    | some (digit, cursor) =>
      match chomping? cursor with
      | some chomping => some (chomping, some digit, cursor.advance 1)
      | none => some (.clip, some digit, cursor)
    | none => some (.clip, none, cursor)

/-- Skips indentation and empty lines, up to column `indent` where it is known; the breaks, the
widest column met, and where the text goes on. -/
def blockBreaks (indent : Option Nat) :
    Nat → List Char → Nat → Cursor → Option (List Char × Nat × Cursor)
  | 0, breaks, widest, cursor => some (breaks, widest, cursor)
  | fuel + 1, breaks, widest, cursor =>
    let room := match indent with
      | some indent => (cursor.chars.take (indent - cursor.column)).takeWhile (· = ' ')
      | none => cursor.chars.takeWhile (· = ' ')
    let cursor := cursor.advance room.length
    let widest := max widest cursor.column
    if indent.all (cursor.column < ·) ∧ cursor.sees '\t' then none
    else if cursor.atBreak then
      let (text, cursor) := cursor.newline
      blockBreaks indent fuel (breaks ++ text) widest cursor
    else some (breaks, widest, cursor)

/-- The lines of a block: the text in reverse, the break after the last line, and the empty lines
after it. -/
def blockLines (folded : Bool) (indent : Nat) : Nat → List Char → (lastBreak breaks : List Char) →
    (afterBlank : Bool) → Cursor → Option (List Char × List Char × List Char × Cursor)
  | 0, text, lastBreak, breaks, _, cursor => some (text, lastBreak, breaks, cursor)
  | fuel + 1, text, lastBreak, breaks, afterBlank, cursor =>
    if cursor.column = indent ∧ !cursor.atEnd then do
      let startsBlank := cursor.atBlank
      let joint :=
        if folded ∧ lastBreak = ['\n'] ∧ !afterBlank ∧ !startsBlank then
          (if breaks.isEmpty then [' '] else [])
        else lastBreak
      let (line, after) := cursor.takeWhile (fun c => !isBreak c)
      let (lastBreak, after) := after.newline
      let text := line.reverse ++ (joint ++ breaks).reverse ++ text
      let (breaks, _, after) ← blockBreaks (some indent) (after.chars.length + 1) [] 0 after
      blockLines folded indent fuel text lastBreak breaks startsBlank after
    else some (text, lastBreak, breaks, cursor)

/-- Reads a block whose mark is next, inside a block that is indented by `parent` columns, or by
none at -1. -/
def block? (folded : Bool) (parent : Int) (cursor : Cursor) : Option (String × Cursor) := do
  let (chomping, increment, cursor) ← header? (cursor.advance 1)
  let cursor := cursor.skipBlanks.skipComment
  if !cursor.atBreakOrEnd then none
  let (_, cursor) := cursor.newline
  let given := increment.map fun increment =>
    if 0 ≤ parent then parent.toNat + increment else increment
  let (breaks, widest, cursor) ← blockBreaks given (cursor.chars.length + 1) [] 0 cursor
  let indent := given.getD (max widest (max (parent + 1).toNat 1))
  let (text, lastBreak, breaks, cursor) ←
    blockLines folded indent (cursor.chars.length + 1) [] [] breaks false cursor
  let ending := match chomping with
    | .strip => []
    | .clip => lastBreak
    | .keep => lastBreak ++ breaks
  some (String.ofList (text.reverse ++ ending), cursor)

end Scalar

end Workflow.Yaml
