import Mathlib.Data.List.TakeWhile
import Workflow.Json.Parser
import Workflow.Json.Printer

/-! What is written for a text or a number is read back. A text is read piece by piece, and a number
in the same way wherever it stands; integers of 64 bits stand for themselves. -/

namespace Workflow.Json

open Text

theorem escapeLetter?_eq_some {c letter : Char} (found : escapeLetter? c = some letter) :
    letter ≠ 'u' ∧ Draft.simpleEscape? letter = some c := by
  simp only [escapeLetter?] at found
  repeat' split at found
  all_goals
    cases found
  all_goals
    subst_vars
    decide

theorem escapeLetter?_eq_none {c : Char} (none : escapeLetter? c = none) : c ≠ '"' ∧ c ≠ '\\' := by
  constructor <;> rintro rfl <;> cases none

/-- A character is escaped by a letter or by four digits, or stands for itself. -/
inductive Escaped (c : Char) : List Char → Prop where
  | letter {letter : Char} (other : letter ≠ 'u') (stands : Draft.simpleEscape? letter = some c) :
      Escaped c ['\\', letter]
  | digits (control : c.toNat < 0x20) :
      Escaped c ['\\', 'u', '0', '0', hexChar (c.toNat / 16), hexChar (c.toNat % 16)]
  | plain (noControl : ¬ c.toNat < 0x20) (noQuote : c ≠ '"') (noMark : c ≠ '\\') : Escaped c [c]

theorem escaped_escape (c : Char) : Escaped c (escape c) := by
  cases found : escapeLetter? c with
  | some letter =>
    rw [escape, found]
    obtain ⟨other, stands⟩ := escapeLetter?_eq_some found
    exact .letter other stands
  | none =>
    obtain ⟨noQuote, noMark⟩ := escapeLetter?_eq_none found
    rw [escape, found]
    dsimp only
    split
    · exact .digits ‹_›
    · exact .plain ‹_› noQuote noMark

theorem Escaped.head {c : Char} {chars : List Char} (escaped : Escaped c chars) :
    ∃ first rest, chars = first :: rest ∧ first ≠ '"' := by
  cases escaped with
  | letter other stands => exact ⟨_, _, rfl, by decide⟩
  | digits control => exact ⟨_, _, rfl, by decide⟩
  | plain noControl noQuote noMark => exact ⟨_, _, rfl, noQuote⟩

namespace Draft

/-- A reader takes a value off the front and leaves the rest. -/
def Yields {α : Type} {within : List Char → Prop}
    (reading : Except SyntaxError (α × { rest : List Char // within rest })) (value : α)
    (rest : List Char) : Prop :=
  reading.map (fun read => (read.1, read.2.val)) = .ok (value, rest)

theorem Yields.eq {α : Type} {within : List Char → Prop}
    {reading : Except SyntaxError (α × { rest : List Char // within rest })} {value : α}
    {rest : List Char} (yields : Yields reading value rest) :
    ∃ bound, reading = .ok (value, ⟨rest, bound⟩) := by
  cases reading with
  | error fault => cases yields
  | ok read =>
    cases yields
    exact ⟨read.2.property, rfl⟩

theorem unitOf_control :
    ∀ code < 0x20, unitOf '0' '0' (hexChar (code / 16)) (hexChar (code % 16)) = some code := by
  decide

theorem readPiece_escaped {c : Char} {chars : List Char} (escaped : Escaped c chars)
    (rest : List Char) : Yields (readPiece (chars ++ rest)) (.ok c) rest := by
  cases escaped with
  | @letter letter other stands =>
    change Yields (readPiece ('\\' :: letter :: rest)) _ _
    rw [readPiece.eq_4 _ _ fun _ _ _ _ _ same _ => other same, if_neg other]
    simp only [stands]
    rfl
  | digits control =>
    have low : isLow c.toNat = false := by simp [isLow]; omega
    have high : isHigh c.toNat = false := by simp [isHigh]; omega
    simp only [List.cons_append, List.nil_append, readPiece, unitOf_control c.toNat control]
    simp only [low, high, Char.ofNat_toNat]
    rfl
  | plain noControl noQuote noMark =>
    change Yields (readPiece (c :: rest)) _ _
    rw [readPiece.eq_5 _ _ (fun same _ => noMark same) (fun _ _ _ _ _ same _ => noMark same)
      fun _ _ same _ => noMark same, if_neg noControl]
    rfl

theorem joinPieces_ok (chars : List Char) :
    joinPieces (chars.map .ok) = .ok (String.ofList chars) := by
  have read : ∀ chars : List Char, (chars.map (Except.ok : Char → Piece)).mapM id = .ok chars := by
    intro chars
    induction chars with
    | nil => rfl
    | cons c rest ih =>
      rw [List.map_cons, List.mapM_cons, ih]
      rfl
  rw [joinPieces, read]
  rfl

theorem readString_piece {chars : List Char} (within : ∀ rest, chars ≠ '"' :: rest)
    {piece : Piece} {rest last : List Char} (first : Yields (readPiece chars) piece rest)
    {before : List Piece} {content : StringDraft}
    (read : Yields (readString (piece :: before) rest) content last) :
    Yields (readString before chars) content last := by
  obtain ⟨_, first⟩ := first.eq
  obtain ⟨_, read⟩ := read.eq
  rw [readString]
  · simp only [first, read]
    rfl
  · exact within

theorem readString_quoted (chars rest : List Char) (before : List Piece) :
    Yields (readString before (chars.flatMap escape ++ '"' :: rest))
      (joinPieces (before.reverse ++ chars.map .ok)) rest := by
  induction chars generalizing before with
  | nil =>
    change Yields (readString before ('"' :: rest)) _ _
    rw [readString, List.map_nil, List.append_nil]
    rfl
  | cons c chars ih =>
    have read := ih (.ok c :: before)
    have piece := readPiece_escaped (escaped_escape c) (chars.flatMap escape ++ '"' :: rest)
    obtain ⟨first, others, shape, noQuote⟩ := (escaped_escape c).head
    have within : ∀ rest', escape c ++ (chars.flatMap escape ++ '"' :: rest) ≠ '"' :: rest' := by
      intro rest' same
      rw [shape] at same
      exact noQuote (List.cons.inj same).1
    have pieces : (Except.ok c :: before).reverse ++ chars.map .ok =
        before.reverse ++ (c :: chars).map .ok := by simp
    rw [pieces] at read
    rw [List.flatMap_cons, List.append_assoc]
    exact readString_piece within piece read

/-- What is written for a text is read as this text. -/
theorem readString_quote (text : String) (rest : List Char) :
    Yields (readString [] (text.toList.flatMap escape ++ '"' :: rest)) (.ok text) rest := by
  have read := readString_quoted text.toList rest []
  rwa [List.reverse_nil, List.nil_append, joinPieces_ok, String.ofList_toList] at read

/-- What may follow a number: the end, or a mark of the container that it is in. -/
def Closes : List Char → Prop
  | [] => True
  | c :: _ => c = ',' ∨ c = ']' ∨ c = '\x7d'

variable {chars left rest : List Char}

theorem Closes.digits (closes : Closes rest) (chars : List Char) :
    (chars ++ rest).takeWhile Char.isDigit = chars.takeWhile Char.isDigit ∧
      (chars ++ rest).dropWhile Char.isDigit = chars.dropWhile Char.isDigit ++ rest := by
  induction chars with
  | nil =>
    cases rest with
    | nil => exact ⟨rfl, rfl⟩
    | cons c rest => rcases closes with rfl | rfl | rfl <;> exact ⟨rfl, rfl⟩
  | cons c chars ih =>
    rw [List.cons_append, List.takeWhile_cons, List.takeWhile_cons, List.dropWhile_cons,
      List.dropWhile_cons]
    split
    · exact ⟨congrArg (c :: ·) ih.1, ih.2⟩
    · exact ⟨rfl, rfl⟩

theorem readDigits_append {digits : List Nat} (read : Yields (readDigits chars) digits left)
    (closes : Closes rest) : Yields (readDigits (chars ++ rest)) digits (left ++ rest) := by
  cases chars with
  | nil => cases read
  | cons c chars =>
    obtain ⟨taken, dropped⟩ := closes.digits chars
    rw [List.cons_append]
    rw [readDigits] at read ⊢
    split at read
    · cases read
      rw [if_pos ‹_›, taken]
      simp only [Yields, Except.map, dropped]
    · cases read

def lastDigits {α : Type} {whole : List Char} (scale : List Nat → α) (chars : List Char)
    (le : chars.length ≤ whole.length) : Except SyntaxError (α × AtMost whole) :=
  (readDigits chars).map fun read => (scale read.1, read.2.within le)

theorem lastDigits_append {α : Type} {whole longer : List Char} {scale : List Nat → α}
    {le : chars.length ≤ whole.length} {le' : (chars ++ rest).length ≤ longer.length} {value : α}
    (read : Yields (lastDigits scale chars le) value left) (closes : Closes rest) :
    Yields (lastDigits scale (chars ++ rest) le') value (left ++ rest) := by
  rw [lastDigits] at read ⊢
  cases first : readDigits chars with
  | error fault =>
    rw [first] at read
    cases read
  | ok digits =>
    obtain ⟨_, longer⟩ := (readDigits_append (congrArg _ first) closes).eq
    rw [first] at read
    cases read
    rw [longer]
    rfl

theorem readFraction_point (chars : List Char) :
    readFraction ('.' :: chars) = lastDigits some chars (Nat.le_succ _) := by
  rw [readFraction, lastDigits]
  cases readDigits chars <;> rfl

theorem readFraction_append {fraction : Option (List Nat)}
    (read : Yields (readFraction chars) fraction left) (closes : Closes rest) :
    Yields (readFraction (chars ++ rest)) fraction (left ++ rest) := by
  cases chars with
  | nil =>
    cases read
    cases rest with
    | nil => rfl
    | cons c rest => rcases closes with rfl | rfl | rfl <;> rfl
  | cons c chars =>
    rw [List.cons_append]
    by_cases point : c = '.'
    · subst point
      rw [readFraction_point] at read ⊢
      exact lastDigits_append read closes
    · rw [readFraction.eq_2 _ fun _ same => point (List.cons.inj same).1] at read ⊢
      cases read
      rfl

section Power

variable {mark : Char} (exponent : mark = 'e' ∨ mark = 'E')

include exponent

theorem readPower_minus (chars : List Char) : readPower (mark :: '-' :: chars) =
    lastDigits (fun digits => some (-Int.ofNat (ofDigits 10 digits))) chars
      (Nat.le_add_right _ 2) := by
  rw [readPower, if_pos exponent, lastDigits]
  cases readDigits chars <;> rfl

theorem readPower_plus (chars : List Char) : readPower (mark :: '+' :: chars) =
    lastDigits (fun digits => some (Int.ofNat (ofDigits 10 digits))) chars
      (Nat.le_add_right _ 2) := by
  rw [readPower, if_pos exponent, lastDigits]
  cases readDigits chars <;> rfl

theorem readPower_unsigned {c : Char} (minus : c ≠ '-') (plus : c ≠ '+') (chars : List Char) :
    readPower (mark :: c :: chars) =
      lastDigits (fun digits => some (Int.ofNat (ofDigits 10 digits))) (c :: chars)
        (Nat.le_succ _) := by
  rw [readPower, if_pos exponent, lastDigits]
  · cases readDigits (c :: chars) <;> rfl
  · exact fun _ same => minus (List.cons.inj same).1
  · exact fun _ same => plus (List.cons.inj same).1

end Power

theorem readPower_append {power : Option Int}
    (read : Yields (readPower chars) power left) (closes : Closes rest) :
    Yields (readPower (chars ++ rest)) power (left ++ rest) := by
  cases chars with
  | nil =>
    cases read
    cases rest with
    | nil => rfl
    | cons c rest => rcases closes with rfl | rfl | rfl <;> rfl
  | cons mark chars =>
    rw [List.cons_append]
    by_cases exponent : mark = 'e' ∨ mark = 'E'
    · cases chars with
      | nil =>
        simp only [readPower, exponent, if_true] at read
        cases read
      | cons c chars =>
        rw [List.cons_append]
        by_cases minus : c = '-'
        · subst minus
          rw [readPower_minus exponent] at read ⊢
          exact lastDigits_append read closes
        by_cases plus : c = '+'
        · subst plus
          rw [readPower_plus exponent] at read ⊢
          exact lastDigits_append read closes
        · rw [readPower_unsigned exponent minus plus] at read ⊢
          exact lastDigits_append read closes
    · simp only [readPower, if_neg exponent] at read ⊢
      cases read
      rfl

theorem readWhole_append {whole : List Nat}
    (read : Yields (readWhole chars) whole left) (closes : Closes rest) :
    Yields (readWhole (chars ++ rest)) whole (left ++ rest) := by
  cases chars with
  | nil => cases read
  | cons first chars =>
    by_cases zero : first = '0'
    · subst zero
      cases chars with
      | nil =>
        cases read
        cases rest with
        | nil => rfl
        | cons c rest => rcases closes with rfl | rfl | rfl <;> rfl
      | cons c chars =>
        rw [List.cons_append, List.cons_append]
        rw [readWhole] at read ⊢
        split at read
        · cases read
        · rw [if_neg ‹_›]
          cases read
          rfl
    · rw [readWhole.eq_2 _ fun _ _ same => zero (List.cons.inj same).1] at read
      rw [List.cons_append, readWhole.eq_2 _ fun _ _ same => zero (List.cons.inj same).1]
      exact readDigits_append read closes

/-- A number is read in the same way where it stands in a container. -/
theorem readNumber_append {negative : Bool} {literal : Number.Literal}
    (read : Yields (readNumber negative chars) literal left) (closes : Closes rest) :
    Yields (readNumber negative (chars ++ rest)) literal (left ++ rest) := by
  rw [readNumber] at read ⊢
  cases first : readWhole chars with
  | error fault =>
    rw [first] at read
    cases read
  | ok whole =>
  rw [first] at read
  cases second : readFraction whole.2.val with
  | error fault =>
    simp only [second] at read
    cases read
  | ok fraction =>
  simp only [second] at read
  cases third : readPower fraction.2.val with
  | error fault =>
    simp only [third] at read
    cases read
  | ok power =>
  simp only [third] at read
  cases read
  obtain ⟨_, first⟩ := (readWhole_append (congrArg _ first) closes).eq
  obtain ⟨_, second⟩ := (readFraction_append (congrArg _ second) closes).eq
  obtain ⟨_, third⟩ := (readPower_append (congrArg _ third) closes).eq
  rw [first]
  simp only [second, third]
  rfl

def whole? {α : Type} {chars : List Char} : Except SyntaxError (α × Rest chars) → Option α
  | .ok (value, ⟨[], _⟩) => some value
  | _ => none

theorem whole?_eq_some {α : Type} {chars : List Char}
    {reading : Except SyntaxError (α × Rest chars)} {value : α} :
    whole? reading = some value ↔ Yields reading value [] := by
  constructor
  · intro whole
    unfold whole? at whole
    split at whole
    · cases whole
      rfl
    · cases whole
  · intro yields
    obtain ⟨_, rfl⟩ := yields.eq
    rfl

def literal? (chars : List Char) : Option Number.Literal :=
  match chars with
  | '-' :: digits => whole? (readNumber true digits)
  | digits => whole? (readNumber false digits)

end Draft

def Number.readBack? (number : Number) : Option Number :=
  (Draft.literal? number.chars).bind Number.Literal.number?

theorem ofDigits_decimal (value : Nat) : ofDigits 10 (Draft.digitsOf (decimal value)) = value := by
  have same : ofDigits 10 (Draft.digitsOf (decimal value)) =
      Nat.ofDigitChars 10 (Nat.toDigits 10 value) 0 := by
    rw [ofDigits, Draft.digitsOf, List.foldl_map, Nat.ofDigitChars_eq_foldl, decimal]
    simp only [Nat.mul_comm]
  rw [same, Nat.ofDigitChars_ten_toDigits]

/-- No zero leads, unless it is the number itself. -/
theorem decimal_head {value : Nat} (positive : value ≠ 0) (rest : List Char) :
    decimal value ≠ '0' :: rest := by
  induction value using Nat.base_induction 10 (by decide) generalizing rest with
  | single digit less =>
    rw [decimal, Nat.toDigits_of_lt_base less]
    intro same
    exact positive (Nat.digitChar_eq_zero.mp (List.cons.inj same).1)
  | digit value digit less more ih =>
    rw [decimal, ← Nat.toDigits_append_toDigits (by decide) more less]
    intro same
    cases shape : Nat.toDigits 10 value with
    | nil => exact Nat.toDigits_ne_nil shape
    | cons c chars =>
      rw [shape] at same
      exact ih (Nat.ne_of_gt more) chars (shape.trans (congrArg (· :: chars) (List.cons.inj same).1))

theorem isDigit_decimal (value : Nat) : ∀ c ∈ decimal value, c.isDigit = true :=
  fun _ member => Nat.isDigit_of_mem_toDigits (by decide) (by decide) member

namespace Draft

theorem readDigits_all {c : Char} {chars : List Char} (all : ∀ d ∈ c :: chars, d.isDigit = true) :
    Yields (readDigits (c :: chars)) (digitsOf (c :: chars)) [] := by
  obtain ⟨first, rest⟩ := List.forall_mem_cons.mp all
  rw [readDigits, if_pos first]
  simp only [Yields, Except.map]
  rw [List.takeWhile_eq_self_iff.mpr rest, List.dropWhile_eq_nil_iff.mpr rest]

theorem readNumber_decimal (negative : Bool) (value : Nat) :
    Yields (readNumber negative (decimal value)) ⟨negative, digitsOf (decimal value), none, none⟩
      [] := by
  have all := isDigit_decimal value
  have whole : Yields (readWhole (decimal value)) (digitsOf (decimal value)) [] := by
    by_cases zero : value = 0
    · subst zero
      rfl
    · cases shape : decimal value with
      | nil => exact absurd shape Nat.toDigits_ne_nil
      | cons c chars =>
        rw [shape] at all
        rw [readWhole.eq_2 _ fun _ _ same => decimal_head zero _ (shape.trans same)]
        exact readDigits_all all
  obtain ⟨_, whole⟩ := whole.eq
  rw [readNumber, whole]
  rfl

end Draft

theorem Draft.literal?_decimal (value : Nat) :
    literal? (decimal value) = some ⟨false, digitsOf (decimal value), none, none⟩ := by
  have noSign (digits : List Char) : decimal value ≠ '-' :: digits := by
    intro same
    have digit := isDigit_decimal value '-' (same ▸ List.mem_cons_self)
    exact absurd digit (by decide)
  rw [literal?.eq_2 _ noSign]
  exact whole?_eq_some.mpr (readNumber_decimal false value)

theorem Number.readBack?_integer (value : Int) (inRange : InRange value) :
    readBack? (.integer value inRange) = some (.integer value inRange) := by
  have kept : ofInt? value = some (.integer value inRange) := dif_pos inRange
  rw [readBack?, chars, intChars]
  split
  · rename_i negative
    have read := Draft.whole?_eq_some.mpr (Draft.readNumber_decimal true value.natAbs)
    have magnitude : -(value.natAbs : Int) = value := by omega
    have nonzero : value ≠ 0 := Int.ne_of_lt negative
    rw [Draft.literal?, read, Option.bind_some, Literal.number?]
    simp only [ofDigits_decimal, magnitude, if_true, kept, nonzero, and_false, if_false]
    rfl
  · rename_i positive
    have magnitude : (value.natAbs : Int) = value := by omega
    rw [Draft.literal?_decimal, Option.bind_some, Literal.number?]
    simp only [ofDigits_decimal, magnitude, kept, Bool.false_eq_true, false_and, if_false]
    rfl

/-- A double is read back from its text. Nothing has to be asked of an integer. -/
def Number.IsFaithful : Number → Prop
  | .integer _ _ => True
  | .real double => readBack? (.real double) = some (.real double)

instance : (number : Number) → Decidable number.IsFaithful
  | .integer _ _ => inferInstanceAs (Decidable True)
  | .real double => inferInstanceAs (Decidable (Number.readBack? (.real double) = some (.real double)))

theorem Number.IsFaithful.literal {number : Number} (faithful : number.IsFaithful) :
    ∃ literal, Draft.literal? number.chars = some literal ∧ literal.number? = some number := by
  cases number with
  | integer value inRange => exact Option.bind_eq_some_iff.mp (Number.readBack?_integer value inRange)
  | real double => exact Option.bind_eq_some_iff.mp faithful

end Workflow.Json
