import Workflow.Yaml.Scalar
import Workflow.Yaml.Tag

/-! The tokens of a YAML text. Indentation becomes tokens of its own, and a key on one line is
known only by the colon after it, so its tokens are put in front of what was read already. -/

namespace Workflow.Yaml

inductive Token where
  | streamStart
  | streamEnd
  | directive (directive : Directive)
  | documentStart
  | documentEnd
  | blockSequenceStart
  | blockMappingStart
  | blockEnd
  | flowSequenceStart
  | flowSequenceEnd
  | flowMappingStart
  | flowMappingEnd
  | blockEntry
  | flowEntry
  | key
  | value
  | alias (name : String)
  | anchor (name : String)
  | tag (handle suffix : String)
  | scalar (text : String) (style : Style)
deriving DecidableEq, Repr

/-- A place at which a key may have begun: the number of tokens before it and where it stands. A
required one begins its line at the indentation of the block, where nothing else can stand. -/
structure KeyStart where
  place : Nat
  required : Bool
  index : Nat
  line : Nat
  column : Nat

/-- Tokens read so far, and what decides how the text goes on. `keys` holds the possible key of
every open bracket, innermost first, and of the block around them. -/
structure Lexing where
  cursor : Cursor
  tokens : Array Token
  indent : Int
  indents : List Int
  keys : List (Option KeyStart)
  keyAllowed : Bool

namespace Lexing

def start (chars : List Char) : Lexing :=
  { cursor := Cursor.start chars
    tokens := #[.streamStart]
    indent := -1
    indents := []
    keys := [none]
    keyAllowed := true }

def inFlow (state : Lexing) : Bool :=
  1 < state.keys.length

def push (state : Lexing) (token : Token) : Lexing :=
  { state with tokens := state.tokens.push token }

def insertAt (place : Nat) (token : Token) (state : Lexing) : Lexing :=
  { state with tokens := state.tokens.insertIdxIfInBounds place token }

/-- Opens a block at a column that is deeper than the current one. -/
def roll (column : Nat) (place : Option Nat) (token : Token) (state : Lexing) : Lexing :=
  if state.inFlow ∨ (column : Int) ≤ state.indent then state
  else
    let state := match place with
      | some place => state.insertAt place token
      | none => state.push token
    { state with indent := column, indents := state.indent :: state.indents }

def unroll (column : Int) : List Int → Lexing → Lexing
  | [], state => state
  | outer :: rest, state =>
    if state.inFlow ∨ state.indent ≤ column then state
    else unroll column rest { state.push .blockEnd with indent := outer, indents := rest }

def unrollTo (column : Int) (state : Lexing) : Lexing :=
  unroll column state.indents state

/-- Forgets the possible key of the innermost level; a required one must not be lost. -/
def dropKey (state : Lexing) : Option Lexing :=
  match state.keys with
  | some key :: rest => if key.required then none else some { state with keys := none :: rest }
  | _ => some state

def noteKey (state : Lexing) : Option Lexing :=
  if state.keyAllowed then do
    let required := !state.inFlow && state.indent == state.cursor.column
    let state ← state.dropKey
    let key : KeyStart :=
      { place := state.tokens.size
        required
        index := state.cursor.index
        line := state.cursor.line
        column := state.cursor.column }
    some { state with keys := some key :: state.keys.drop 1 }
  else
    some state

/-- A key stands on one line and is no longer than 1024 characters. -/
def isStale (cursor : Cursor) (key : KeyStart) : Bool :=
  key.line < cursor.line || key.index + 1024 < cursor.index

/-- Forgets possible keys that the text has moved past. -/
def dropStale (state : Lexing) : Option Lexing :=
  let stale := state.keys.any fun key => key.any fun key => isStale state.cursor key && key.required
  if stale then none
  else
    some { state with
      keys := state.keys.map fun key => key.filter fun key => !isStale state.cursor key }

def skipToNext : Nat → Lexing → Lexing
  | 0, state => state
  | fuel + 1, state =>
    let cursor := state.cursor
    let cursor := if cursor.index = 0 ∧ cursor.sees '\ufeff' then cursor.advance 1 else cursor
    let tabs := state.inFlow || !state.keyAllowed
    let cursor := (cursor.skipWhile fun c => c = ' ' || (tabs && c = '\t')).skipComment
    if cursor.atBreak then
      skipToNext fuel
        { state with
          cursor := cursor.newline.2
          keyAllowed := state.keyAllowed || !state.inFlow }
    else
      { state with cursor }

def advance (count : Nat) (state : Lexing) : Lexing :=
  { state with cursor := state.cursor.advance count }

def allowKey (allowed : Bool) (state : Lexing) : Lexing :=
  { state with keyAllowed := allowed }

def streamEnd (state : Lexing) : Option Lexing := do
  let cursor := state.cursor
  let cursor :=
    if cursor.column = 0 then cursor else { cursor with column := 0, line := cursor.line + 1 }
  let state ← (unrollTo (-1) { state with cursor }).dropKey
  some ((state.allowKey false).push .streamEnd)

def directive (state : Lexing) : Option Lexing := do
  let state ← (state.unrollTo (-1)).dropKey
  let (directive, cursor) ← Directive.read? state.cursor
  some (({ state with cursor }.allowKey false).push (.directive directive))

def documentMarker (token : Token) (state : Lexing) : Option Lexing := do
  let state ← (state.unrollTo (-1)).dropKey
  some (((state.allowKey false).advance 3).push token)

def openBracket (token : Token) (state : Lexing) : Option Lexing := do
  let state ← state.noteKey
  some (({ state with keys := none :: state.keys }.allowKey true |>.advance 1).push token)

def closeBracket (token : Token) (state : Lexing) : Option Lexing := do
  let state ← state.dropKey
  let keys := if state.inFlow then state.keys.drop 1 else state.keys
  some (({ state with keys }.allowKey false |>.advance 1).push token)

def flowEntry (state : Lexing) : Option Lexing := do
  let state ← state.dropKey
  some (((state.allowKey true).advance 1).push .flowEntry)

def blockEntry (state : Lexing) : Option Lexing := do
  if !state.inFlow ∧ !state.keyAllowed then none
  let state ← (state.roll state.cursor.column none .blockSequenceStart).dropKey
  some (((state.allowKey true).advance 1).push .blockEntry)

def explicitKey (state : Lexing) : Option Lexing := do
  if !state.inFlow ∧ !state.keyAllowed then none
  let state ← (state.roll state.cursor.column none .blockMappingStart).dropKey
  some (((state.allowKey !state.inFlow).advance 1).push .key)

def value (state : Lexing) : Option Lexing :=
  match state.keys with
  | some key :: rest =>
    let state := state.insertAt key.place .key
    let state := state.roll key.column (some key.place) .blockMappingStart
    some ((({ state with keys := none :: rest }.allowKey false).advance 1).push .value)
  | _ =>
    if !state.inFlow ∧ !state.keyAllowed then none
    else
      let state := state.roll state.cursor.column none .blockMappingStart
      some (((state.allowKey !state.inFlow).advance 1).push .value)

def named (token : String → Token) (state : Lexing) : Option Lexing := do
  let state ← state.noteKey
  let (name, cursor) ← Anchor.read? state.cursor
  some (({ state with cursor }.allowKey false).push (token name))

def tag (state : Lexing) : Option Lexing := do
  let state ← state.noteKey
  let (handle, suffix, cursor) ← Tag.read? state.inFlow state.cursor
  some (({ state with cursor }.allowKey false).push (.tag handle suffix))

def block (folded : Bool) (state : Lexing) : Option Lexing := do
  let state ← state.dropKey
  let (text, cursor) ← Scalar.block? folded state.indent state.cursor
  let style := if folded then .folded else .literal
  some (({ state with cursor }.allowKey true).push (.scalar text style))

def quoted (single : Bool) (state : Lexing) : Option Lexing := do
  let state ← state.noteKey
  let (text, cursor) ← Scalar.quoted? single state.cursor
  some (({ state with cursor }.allowKey false).push (.scalar text .quoted))

def plain (state : Lexing) : Option Lexing := do
  let state ← state.noteKey
  let (text, broken, cursor) ← Scalar.plain? state.inFlow (state.indent + 1).toNat state.cursor
  some (({ state with cursor }.allowKey broken).push (.scalar text .plain))

/-- Characters that no plain scalar begins with, save for three before a character of text. -/
def isIndicator (c : Char) : Bool :=
  c ∈ ['-', '?', ':', ',', '[', ']', '{', '}', '#', '&', '*', '!', '|', '>', '\'', '"', '%', '@',
    '\x60']

def startsPlain (state : Lexing) (c : Char) : Bool :=
  let cursor := state.cursor
  (!isBlankSpace c && !isBreak c && !isIndicator c) ||
    (c = '-' && !(cursor.peekAt? 1).any isBlankSpace) ||
    (!state.inFlow && (c = '?' || c = ':') && !cursor.endsAt 1)

/-- Reads the next tokens, from a place where they begin. -/
def next (state : Lexing) : Option Lexing :=
  let cursor := state.cursor
  match cursor.peek? with
  | none => state.streamEnd
  | some c =>
    if cursor.column = 0 ∧ c = '%' then state.directive
    else if cursor.atMarker '-' then state.documentMarker .documentStart
    else if cursor.atMarker '.' then state.documentMarker .documentEnd
    else if c = '[' then state.openBracket .flowSequenceStart
    else if c = '{' then state.openBracket .flowMappingStart
    else if c = ']' then state.closeBracket .flowSequenceEnd
    else if c = '}' then state.closeBracket .flowMappingEnd
    else if c = ',' then state.flowEntry
    else if c = '-' ∧ cursor.endsAt 1 then state.blockEntry
    else if c = '?' ∧ (state.inFlow ∨ cursor.endsAt 1) then state.explicitKey
    else if c = ':' ∧ (state.inFlow ∨ cursor.endsAt 1) then state.value
    else if c = '*' then state.named .alias
    else if c = '&' then state.named .anchor
    else if c = '!' then state.tag
    else if c = '|' ∧ !state.inFlow then state.block false
    else if c = '>' ∧ !state.inFlow then state.block true
    else if c = '\'' then state.quoted true
    else if c = '"' then state.quoted false
    else if state.startsPlain c then state.plain
    else none

/-- Tokens that can be handed out although the reading failed: those before the first possible
key, which was still waiting for its colon. -/
def released (state : Lexing) : List Token :=
  let places := state.keys.filterMap fun key => key.map (·.place)
  match places.min? with
  | some place => state.tokens.toList.take place
  | none => state.tokens.toList

/-- Reads tokens to the end of the text, or to the first fault. -/
def run : Nat → Lexing → List Token
  | 0, state => state.released
  | fuel + 1, state =>
    match state.dropStale with
    | none => state.released
    | some before =>
      let ready := skipToNext (before.cursor.chars.length + 1) before
      match ready.dropStale with
      | none => before.released
      | some ready =>
        match (ready.unrollTo ready.cursor.column).next with
        | none => before.released
        | some after =>
          if after.tokens.back? = some .streamEnd then after.tokens.toList else run fuel after

end Lexing

def isPrintable (c : Char) : Bool :=
  let code := c.toNat
  c = '\t' || c = '\n' || c = '\r' || (0x20 ≤ code && code ≤ 0x7E) || code = 0x85 ||
    (0xA0 ≤ code && code ≤ 0xD7FF) || (0xE000 ≤ code && code ≤ 0xFFFD) || 0x10000 ≤ code

/-- The tokens of a text. A list that does not end with the end of the stream stops at a fault. -/
def tokens (text : String) : List Token :=
  let chars := text.toList
  if chars.all isPrintable then Lexing.run (chars.length + 2) (Lexing.start chars) else []

end Workflow.Yaml
