import Workflow.Json.Basic

/-! JSON text as far as it can be read. A draft keeps members in the order of the text, repeated
keys included, and says where the text stops making sense: whoever takes a draft front to back
meets its faults in the order of the text, and can refuse a shape before a later fault. -/

namespace Workflow.Json

open Workflow.Text

inductive SyntaxError where
  | endInValue
  | endInArray
  | endInObject
  | endInString
  | expectedColon
  | expectedCommaOrBracket
  | expectedCommaOrBrace
  | expectedIdent
  | expectedValue
  | invalidEscape
  | invalidNumber
  | numberOutOfRange
  | controlCharacter
  | keyNotString
  | loneSurrogate
  | trailingComma
  | trailingCharacters
  | endOfHexEscape
  | recursionLimit
deriving DecidableEq, Repr

def SyntaxError.message : SyntaxError → String
  | endInValue => "EOF while parsing a value"
  | endInArray => "EOF while parsing a list"
  | endInObject => "EOF while parsing an object"
  | endInString => "EOF while parsing a string"
  | expectedColon => "expected `:`"
  | expectedCommaOrBracket => "expected `,` or `]`"
  | expectedCommaOrBrace => "expected `,` or `\x7d`"
  | expectedIdent => "expected ident"
  | expectedValue => "expected value"
  | invalidEscape => "invalid escape"
  | invalidNumber => "invalid number"
  | numberOutOfRange => "number out of range"
  | controlCharacter => "control character (\\u0000-\\u001F) found while parsing a string"
  | keyNotString => "key must be a string"
  | loneSurrogate => "lone leading surrogate in hex escape"
  | trailingComma => "trailing comma"
  | trailingCharacters => "trailing characters"
  | endOfHexEscape => "unexpected end of hex escape"
  | recursionLimit => "recursion limit exceeded"

/-- A string literal as read: its text, or the fault of an escape that is well formed but stands
for no character. -/
abbrev StringDraft := Except SyntaxError String

/-- What could be read of a value. A container ends either at its closing mark or at a fault. -/
inductive Draft where
  | broken (fault : SyntaxError)
  | null
  | bool (value : Bool)
  | number (literal : Number.Literal)
  | string (content : StringDraft)
  | array (items : List Draft) (ending : Option SyntaxError)
  | object (members : List (StringDraft × Draft)) (ending : Option SyntaxError)
deriving Inhabited

def isSpace (c : Char) : Bool :=
  c = ' ' || c = '\n' || c = '\t' || c = '\r'

def skipSpace (chars : List Char) : List Char :=
  chars.dropWhile isSpace

theorem length_skipSpace_le (chars : List Char) : (skipSpace chars).length ≤ chars.length :=
  (List.dropWhile_suffix isSpace).length_le

namespace Draft

/-- The rest of a text after something was read off its front. -/
abbrev Rest (chars : List Char) := { rest : List Char // rest.length < chars.length }

abbrev AtMost (chars : List Char) := { rest : List Char // rest.length ≤ chars.length }

/-- The rest of a text as the rest of one that is no shorter. -/
def Rest.within {chars whole : List Char} (rest : Rest chars) (le : chars.length ≤ whole.length) :
    AtMost whole :=
  ⟨rest.val, Nat.le_trans (Nat.le_of_lt rest.property) le⟩

def unitOf (a b c d : Char) : Option Nat :=
  ([a, b, c, d].mapM hexDigit?).map (ofDigits 16)

def isHigh (unit : Nat) : Bool :=
  0xD800 ≤ unit && unit ≤ 0xDBFF

def isLow (unit : Nat) : Bool :=
  0xDC00 ≤ unit && unit ≤ 0xDFFF

def joinSurrogates (high low : Nat) : Char :=
  Char.ofNat (0x10000 + (high - 0xD800) * 0x400 + (low - 0xDC00))

def simpleEscape? (c : Char) : Option Char :=
  if c = '"' then some '"'
  else if c = '\\' then some '\\'
  else if c = '/' then some '/'
  else if c = 'b' then some '\x08'
  else if c = 'f' then some '\x0c'
  else if c = 'n' then some '\n'
  else if c = 'r' then some '\r'
  else if c = 't' then some '\t'
  else none

/-- A piece of a string literal: a character, or a fault that does not stop the reading. -/
abbrev Piece := Except SyntaxError Char

/-- The piece at the front of a literal's body. -/
def readPiece : (chars : List Char) → Except SyntaxError (Piece × Rest chars)
  | [] => .error .endInString
  | '\\' :: [] => .error .endInString
  | '\\' :: 'u' :: a :: b :: c :: d :: rest =>
    match unitOf a b c d with
    | none => .error .invalidEscape
    | some unit =>
      if isLow unit then
        .ok (.error .loneSurrogate, ⟨rest, by simp only [List.length_cons]; omega⟩)
      else if isHigh unit then
        match rest with
        | '\\' :: 'u' :: a :: b :: c :: d :: rest =>
          match unitOf a b c d with
          | none => .error .invalidEscape
          | some low =>
            let piece :=
              if isLow low then .ok (joinSurrogates unit low) else .error .loneSurrogate
            .ok (piece, ⟨rest, by simp only [List.length_cons]; omega⟩)
        | '\\' :: 'u' :: _ => .error .endInString
        | [] => .error .endInString
        | rest => .ok (.error .endOfHexEscape, ⟨rest, by simp only [List.length_cons]; omega⟩)
      else
        .ok (.ok (Char.ofNat unit), ⟨rest, by simp only [List.length_cons]; omega⟩)
  | '\\' :: c :: rest =>
    if c = 'u' then .error .endInString
    else
      match simpleEscape? c with
      | some escaped => .ok (.ok escaped, ⟨rest, by simp only [List.length_cons]; omega⟩)
      | none => .error .invalidEscape
  | c :: rest =>
    if c.toNat < 0x20 then .error .controlCharacter else .ok (.ok c, ⟨rest, by simp⟩)

/-- Joins the pieces of a literal; the first fault decides. -/
def joinPieces (pieces : List Piece) : StringDraft :=
  (pieces.mapM id).map String.ofList

/-- Reads the body of a string literal up to its closing quote. A fault that stops the reading
gives way to one that was met before it. -/
def readString (before : List Piece) (chars : List Char) :
    Except SyntaxError (StringDraft × Rest chars) :=
  match chars with
  | '"' :: rest => .ok (joinPieces before.reverse, ⟨rest, by simp⟩)
  | chars =>
    match readPiece chars with
    | .error fault =>
      match joinPieces before.reverse with
      | .error earlier => .error earlier
      | .ok _ => .error fault
    | .ok (piece, rest) =>
      match readString (piece :: before) rest.val with
      | .error fault => .error fault
      | .ok (content, last) => .ok (content, ⟨last.val, Nat.lt_trans last.property rest.property⟩)
termination_by chars.length
decreasing_by exact rest.property

def digitsOf (chars : List Char) : List Nat :=
  chars.map fun c => c.toNat - '0'.toNat

/-- Digits at the front and what follows them; at least one is needed. -/
def readDigits (chars : List Char) : Except SyntaxError (List Nat × Rest chars) :=
  match chars with
  | [] => .error .endInValue
  | c :: rest =>
    if c.isDigit then
      .ok (digitsOf (c :: rest.takeWhile Char.isDigit),
        ⟨rest.dropWhile Char.isDigit,
          Nat.lt_succ_of_le (List.dropWhile_suffix Char.isDigit).length_le⟩)
    else
      .error .invalidNumber

def readFraction (chars : List Char) :
    Except SyntaxError (Option (List Nat) × AtMost chars) :=
  match chars with
  | '.' :: rest =>
    match readDigits rest with
    | .error fault => .error fault
    | .ok (digits, rest) => .ok (some digits, rest.within (Nat.le_succ _))
  | chars => .ok (none, ⟨chars, Nat.le_refl _⟩)

def readPower (chars : List Char) : Except SyntaxError (Option Int × AtMost chars) :=
  match chars with
  | [] => .ok (none, ⟨[], Nat.le_refl _⟩)
  | mark :: rest =>
    if mark = 'e' ∨ mark = 'E' then
      match rest with
      | '-' :: rest =>
        match readDigits rest with
        | .error fault => .error fault
        | .ok (digits, rest) =>
          .ok (some (-Int.ofNat (ofDigits 10 digits)), rest.within (Nat.le_add_right _ 2))
      | '+' :: rest =>
        match readDigits rest with
        | .error fault => .error fault
        | .ok (digits, rest) =>
          .ok (some (Int.ofNat (ofDigits 10 digits)), rest.within (Nat.le_add_right _ 2))
      | rest =>
        match readDigits rest with
        | .error fault => .error fault
        | .ok (digits, rest) =>
          .ok (some (Int.ofNat (ofDigits 10 digits)), rest.within (Nat.le_succ _))
    else
      .ok (none, ⟨mark :: rest, Nat.le_refl _⟩)

/-- The digits before the point: no digit follows a zero at the front. -/
def readWhole (chars : List Char) : Except SyntaxError (List Nat × Rest chars) :=
  match chars with
  | '0' :: c :: rest =>
    if c.isDigit then .error .invalidNumber else .ok ([0], ⟨c :: rest, by simp⟩)
  | chars => readDigits chars

def readNumber (negative : Bool) (chars : List Char) :
    Except SyntaxError (Number.Literal × Rest chars) :=
  match readWhole chars with
  | .error fault => .error fault
  | .ok (whole, afterWhole) =>
    match readFraction afterWhole.val with
    | .error fault => .error fault
    | .ok (fraction, afterFraction) =>
      match readPower afterFraction.val with
      | .error fault => .error fault
      | .ok (power, last) =>
        .ok (⟨negative, whole, fraction, power⟩,
          ⟨last.val, Nat.lt_of_le_of_lt (Nat.le_trans last.property afterFraction.property)
            afterWhole.property⟩)

/-- Reads the letters of a name after its first one. -/
def readName (letters chars : List Char) : Except SyntaxError (AtMost chars) :=
  match letters, chars with
  | [], chars => .ok ⟨chars, Nat.le_refl _⟩
  | _ :: _, [] => .error .endInValue
  | letter :: letters, c :: rest =>
    if c = letter then
      match readName letters rest with
      | .error fault => .error fault
      | .ok last => .ok ⟨last.val, Nat.le_succ_of_le last.property⟩
    else
      .error .expectedIdent

/-- A draft with the text after it, or one that holds the fault at which the text ended. -/
inductive Outcome (chars : List Char) where
  | read (draft : Draft) (rest : Rest chars)
  | stopped (draft : Draft)

/-- The contents of a container with the text after it, or with the fault at its end. -/
inductive Contents (α : Type) (chars : List Char) where
  | read (contents : List α) (rest : Rest chars)
  | stopped (contents : List α) (fault : SyntaxError)

def Contents.cons {α : Type} {chars rest : List Char} (item : α) (le : rest.length ≤ chars.length) :
    Contents α rest → Contents α chars
  | .read contents last => .read (item :: contents) ⟨last.val, Nat.lt_of_lt_of_le last.property le⟩
  | .stopped contents fault => .stopped (item :: contents) fault

def Contents.weaken {α : Type} {chars rest : List Char} (le : rest.length ≤ chars.length) :
    Contents α rest → Contents α chars
  | .read contents last => .read contents ⟨last.val, Nat.lt_of_lt_of_le last.property le⟩
  | .stopped contents fault => .stopped contents fault

def named (draft : Draft) {chars rest : List Char} (lt : rest.length < chars.length) :
    Except SyntaxError (AtMost rest) → Outcome chars
  | .error fault => .stopped (.broken fault)
  | .ok last => .read draft ⟨last.val, Nat.lt_of_le_of_lt last.property lt⟩

def numbered {chars rest : List Char} (le : rest.length ≤ chars.length) :
    Except SyntaxError (Number.Literal × Rest rest) → Outcome chars
  | .error fault => .stopped (.broken fault)
  | .ok (literal, last) => .read (.number literal) ⟨last.val, Nat.lt_of_lt_of_le last.property le⟩

theorem lt_of_skipSpace {chars rest : List Char} {c : Char}
    (skipped : skipSpace chars = c :: rest) :
    rest.length < chars.length := by
  have := length_skipSpace_le chars
  rw [skipped] at this
  exact this

mutual
/-- Reads the value at the front of a text. -/
def readValue (chars : List Char) : Outcome chars :=
  match skipped : skipSpace chars with
  | [] => .stopped (.broken .endInValue)
  | c :: rest =>
    have lt := lt_of_skipSpace skipped
    if c = 'n' then named .null lt (readName "ull".toList rest)
    else if c = 't' then named (.bool true) lt (readName "rue".toList rest)
    else if c = 'f' then named (.bool false) lt (readName "alse".toList rest)
    else if c = '-' then numbered (Nat.le_of_lt lt) (readNumber true rest)
    else if c.isDigit then
      numbered (by have := length_skipSpace_le chars; rw [skipped] at this; exact this)
        (readNumber false (c :: rest))
    else if c = '"' then
      match readString [] rest with
      | .error fault => .stopped (.broken fault)
      | .ok (content, last) => .read (.string content) ⟨last.val, Nat.lt_trans last.property lt⟩
    else if c = '[' then
      match readItems true rest with
      | .read items last => .read (.array items none) ⟨last.val, Nat.lt_trans last.property lt⟩
      | .stopped items fault => .stopped (.array items (some fault))
    else if c = '{' then
      match readMembers true rest with
      | .read members last =>
        .read (.object members none) ⟨last.val, Nat.lt_trans last.property lt⟩
      | .stopped members fault => .stopped (.object members (some fault))
    else .stopped (.broken .expectedValue)
termination_by (chars.length, 0)

/-- Reads the items of an array with the closing bracket, before or after the first one. -/
def readItems (first : Bool) (chars : List Char) : Contents Draft chars :=
  match skipped : skipSpace chars with
  | [] => .stopped [] .endInArray
  | c :: rest =>
    have lt := lt_of_skipSpace skipped
    if c = ']' then .read [] ⟨rest, lt⟩
    else if first then
      match readValue chars with
      | .stopped draft => .stopped [draft] .endInArray
      | .read draft last =>
        (readItems false last.val).cons draft (Nat.le_of_lt last.property)
    else if c = ',' then
      match skipSpace rest with
      | [] => .stopped [] .endInValue
      | ']' :: _ => .stopped [] .trailingComma
      | _ =>
        match readValue rest with
        | .stopped draft => .stopped [draft] .endInArray
        | .read draft last =>
          (readItems false last.val).cons draft (Nat.le_of_lt (Nat.lt_trans last.property lt))
    else .stopped [] .expectedCommaOrBracket
termination_by (chars.length, 2)
decreasing_by
  · exact Prod.Lex.right _ (by decide)
  · exact Prod.Lex.left _ _ last.property
  · exact Prod.Lex.left _ _ lt
  · exact Prod.Lex.left _ _ (Nat.lt_trans last.property lt)

/-- Reads the members of an object with the closing brace, before or after the first one. -/
def readMembers (first : Bool) (chars : List Char) : Contents (StringDraft × Draft) chars :=
  match skipped : skipSpace chars with
  | [] => .stopped [] .endInObject
  | c :: rest =>
    have lt := lt_of_skipSpace skipped
    if c = '}' then .read [] ⟨rest, lt⟩
    else if first then
      (readMember (skipSpace chars)).weaken (length_skipSpace_le chars)
    else if c = ',' then
      (readMember (skipSpace rest)).weaken
        (Nat.le_trans (length_skipSpace_le rest) (Nat.le_of_lt lt))
    else .stopped [] .expectedCommaOrBrace
termination_by (chars.length, 2)
decreasing_by
  · have := length_skipSpace_le chars
    rcases Nat.lt_or_eq_of_le this with less | same
    · exact Prod.Lex.left _ _ less
    · rw [same]; exact Prod.Lex.right _ (by decide)
  · exact Prod.Lex.left _ _ (Nat.lt_of_le_of_lt (length_skipSpace_le rest) lt)

/-- Reads a key and its value, and the members after them. -/
def readMember (chars : List Char) : Contents (StringDraft × Draft) chars :=
  match chars with
  | [] => .stopped [] .endInValue
  | c :: rest =>
    if c = '"' then
      match readString [] rest with
      | .error fault => .stopped [] fault
      | .ok (key, afterKey) =>
        match skipped : skipSpace afterKey.val with
        | [] => .stopped [(key, .broken .endInObject)] .endInObject
        | colon :: afterColon =>
          if colon = ':' then
            match readValue afterColon with
            | .stopped draft => .stopped [(key, draft)] .endInObject
            | .read draft last =>
              (readMembers false last.val).cons (key, draft) (by
                have := lt_of_skipSpace skipped
                have := afterKey.property
                have := last.property
                simp
                omega)
          else .stopped [(key, .broken .expectedColon)] .expectedColon
    else if c = '}' then .stopped [] .trailingComma
    else .stopped [] .keyNotString
termination_by (chars.length, 1)
decreasing_by
  · have := lt_of_skipSpace skipped
    have := afterKey.property
    exact Prod.Lex.left _ _ (by simp; omega)
  · have := lt_of_skipSpace skipped
    have := afterKey.property
    have := last.property
    exact Prod.Lex.left _ _ (by simp; omega)
end

end Draft

end Workflow.Json
