/-! A position in a YAML text: the characters still to come, and where they stand. Line ends are a
line feed, a carriage return or both, and three breaks beyond ASCII, of which two are kept as they
are when text is read across them. -/

namespace Workflow.Yaml

structure Cursor where
  chars : List Char
  index : Nat
  line : Nat
  column : Nat
deriving Repr

def isBreak (c : Char) : Bool :=
  c = '\n' || c = '\r' || c = '\u0085' || c = '\u2028' || c = '\u2029'

def isBlankSpace (c : Char) : Bool :=
  c = ' ' || c = '\t'

/-- Letters, digits, hyphen and underscore, all of ASCII. -/
def isWord (c : Char) : Bool :=
  c.isAlphanum || c = '-' || c = '_'

namespace Cursor

def start (chars : List Char) : Cursor :=
  ⟨chars, 0, 0, 0⟩

def peek? (cursor : Cursor) : Option Char :=
  cursor.chars.head?

def peekAt? (cursor : Cursor) (offset : Nat) : Option Char :=
  cursor.chars[offset]?

def sees (cursor : Cursor) (c : Char) : Bool :=
  cursor.chars.head? == some c

def seesAt (cursor : Cursor) (offset : Nat) (c : Char) : Bool :=
  cursor.peekAt? offset == some c

def atEnd (cursor : Cursor) : Bool :=
  cursor.chars.isEmpty

def atBreak (cursor : Cursor) : Bool :=
  cursor.peek?.any isBreak

def atBlank (cursor : Cursor) : Bool :=
  cursor.peek?.any isBlankSpace

/-- A blank, a break or the end stands `offset` characters ahead. -/
def endsAt (cursor : Cursor) (offset : Nat) : Bool :=
  (cursor.peekAt? offset).all fun c => isBlankSpace c || isBreak c

def atBreakOrEnd (cursor : Cursor) : Bool :=
  cursor.peek?.all isBreak

/-- Moves over characters of the same line. -/
def advance (cursor : Cursor) (count : Nat) : Cursor :=
  { cursor with
    chars := cursor.chars.drop count
    index := cursor.index + count
    column := cursor.column + count }

/-- Takes characters of the same line for as long as they satisfy a test. -/
def takeWhile (cursor : Cursor) (test : Char → Bool) : List Char × Cursor :=
  let taken := cursor.chars.takeWhile test
  (taken, cursor.advance taken.length)

def skipWhile (cursor : Cursor) (test : Char → Bool) : Cursor :=
  (cursor.takeWhile test).2

/-- Moves over a line break, if one is next; the text it stands for. -/
def newline (cursor : Cursor) : List Char × Cursor :=
  let moved (text : List Char) (count : Nat) :=
    (text, ⟨cursor.chars.drop count, cursor.index + count, cursor.line + 1, 0⟩)
  match cursor.chars with
  | '\r' :: '\n' :: _ => moved ['\n'] 2
  | '\r' :: _ => moved ['\n'] 1
  | '\n' :: _ => moved ['\n'] 1
  | '\u0085' :: _ => moved ['\n'] 1
  | '\u2028' :: _ => moved ['\u2028'] 1
  | '\u2029' :: _ => moved ['\u2029'] 1
  | _ => ([], cursor)

/-- A line of three equal marks, alone or before a blank, parts documents. -/
def atMarker (cursor : Cursor) (mark : Char) : Bool :=
  cursor.column = 0 && cursor.seesAt 0 mark && cursor.seesAt 1 mark && cursor.seesAt 2 mark &&
    cursor.endsAt 3

def atDocumentMarker (cursor : Cursor) : Bool :=
  cursor.atMarker '-' || cursor.atMarker '.'

def skipBlanks (cursor : Cursor) : Cursor :=
  cursor.skipWhile isBlankSpace

def skipComment (cursor : Cursor) : Cursor :=
  if cursor.sees '#' then cursor.skipWhile (fun c => !isBreak c) else cursor

end Cursor

end Workflow.Yaml
