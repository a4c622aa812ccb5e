import Mathlib.Algebra.Group.Nat.Defs
import Mathlib.Data.List.TakeWhile
import Workflow.Condition.Comparison

/-! Which numbers have a double, and which one. A whole number below the greatest power of two has
one: scaled to 53 binary digits it is rounded to a significand of as many, or to the next power of
two, and a greater number never to less. So has every text that reads as an integer of 128 bits,
which is never taken for a name of infinity and has the double of the integer. -/

namespace Workflow.Binary64

open Text

/-- Scaling a number by a power of two leaves as many binary digits before the point as it is told. -/
theorem scaled_digits {number : Nat} (positive : number ≠ 0) (digits : Nat) :
    2 ^ digits ≤ (scaled number 1 ((number.log2 : Int) - digits)).1 /
        (scaled number 1 ((number.log2 : Int) - digits)).2 ∧
      (scaled number 1 ((number.log2 : Int) - digits)).1 /
        (scaled number 1 ((number.log2 : Int) - digits)).2 < 2 ^ (digits + 1) := by
  have low := Nat.log2_self_le positive
  have high := Nat.lt_log2_self (n := number)
  have power (places : Nat) : Nat.pow 2 places = 2 ^ places := rfl
  unfold scaled
  split
  next long =>
    obtain ⟨more, split⟩ : ∃ more, number.log2 = digits + more := ⟨number.log2 - digits, by omega⟩
    have shift : ((number.log2 : Int) - digits).toNat = more := by omega
    have positive := Nat.two_pow_pos more
    rw [split] at low high
    simp only [shift, Nat.one_mul, power]
    rw [Nat.le_div_iff_mul_le positive, Nat.div_lt_iff_lt_mul positive, ← Nat.pow_add, ← Nat.pow_add]
    exact ⟨low, by rwa [Nat.add_right_comm]⟩
  next short =>
    obtain ⟨more, split⟩ : ∃ more, digits = number.log2 + more := ⟨digits - number.log2, by omega⟩
    have shift : (-((number.log2 : Int) - digits)).toNat = more := by omega
    have positive := Nat.two_pow_pos more
    simp only [shift, Nat.div_one, power]
    rw [split, Nat.add_right_comm, Nat.pow_add, Nat.pow_add]
    exact ⟨Nat.mul_le_mul_right _ low, Nat.mul_lt_mul_of_pos_right high positive⟩

theorem fittingExponent_eq {number : Nat} (positive : number ≠ 0) :
    fittingExponent number 1 = (number.log2 : Int) - (52 : Nat) := by
  have digits : 0x20000000000000 ≤ _ := (scaled_digits positive 53).1
  have low : (number.log2 : Int) - Nat.log2 1 - 53 = (number.log2 : Int) - (53 : Nat) := by
    rw [show Nat.log2 1 = 0 by decide]
    omega
  simp only [fittingExponent, low]
  rw [if_pos digits]
  omega

theorem roundHalfEven_le (upper lower : Nat) :
    upper / lower ≤ roundHalfEven upper lower ∧ roundHalfEven upper lower ≤ upper / lower + 1 := by
  unfold roundHalfEven
  simp only
  split <;> omega

/-- A rounding to 53 binary digits is a significand, or a carry to the next power of two. -/
theorem canonical_rounded {rounded : Nat} {exponent : Int} (least : 2 ^ 52 ≤ rounded)
    (most : rounded ≤ 2 ^ 53) (above : -1074 ≤ exponent) (below : exponent ≤ 970) :
    Canonical
      (if rounded = 0x20000000000000 then (0x10000000000000, exponent + 1)
        else (rounded, exponent)).1
      (if rounded = 0x20000000000000 then (0x10000000000000, exponent + 1)
        else (rounded, exponent)).2 := by
  unfold Canonical
  split
  next carried => simp only; omega
  next kept => simp only; omega

theorem roundHalfEven_mono {first second : Nat} (lower : Nat) (le : first ≤ second) :
    roundHalfEven first lower ≤ roundHalfEven second lower := by
  obtain same | less := Nat.eq_or_lt_of_le (Nat.div_le_div_right (c := lower) le)
  · have remainders : first % lower ≤ second % lower := by
      rw [Nat.mod_def, Nat.mod_def, same]
      exact Nat.sub_le_sub_right le _
    unfold roundHalfEven
    simp only [same]
    split
    · rw [if_pos (by omega)]
    · split <;> omega
  · calc roundHalfEven first lower
      _ ≤ first / lower + 1 := (roundHalfEven_le first lower).2
      _ ≤ second / lower := less
      _ ≤ roundHalfEven second lower := (roundHalfEven_le second lower).1

theorem scaled_mono {first second : Nat} (exponent : Int) (le : first ≤ second) :
    (scaled first 1 exponent).2 = (scaled second 1 exponent).2 ∧
      (scaled first 1 exponent).1 ≤ (scaled second 1 exponent).1 := by
  unfold scaled
  split
  · exact ⟨rfl, le⟩
  · exact ⟨rfl, Nat.mul_le_mul_right _ le⟩

/-- The double of a whole number in units of the least positive double. -/
def wholeUnits (number : Nat) : Nat :=
  roundHalfEven (scaled number 1 ((number.log2 : Int) - (52 : Nat))).1
      (scaled number 1 ((number.log2 : Int) - (52 : Nat))).2 * 2 ^ (number.log2 + 1022)

theorem wholeUnits_zero : wholeUnits 0 = 0 := by
  have rounded : roundHalfEven (scaled 0 1 ((Nat.log2 0 : Int) - (52 : Nat))).1
      (scaled 0 1 ((Nat.log2 0 : Int) - (52 : Nat))).2 = 0 := by decide
  rw [wholeUnits, rounded, Nat.zero_mul]

theorem wholeUnits_bounds {number : Nat} (positive : number ≠ 0) :
    2 ^ (number.log2 + 1074) ≤ wholeUnits number ∧ wholeUnits number ≤ 2 ^ (number.log2 + 1075) := by
  obtain ⟨least, greatest⟩ := scaled_digits positive 52
  obtain ⟨above, below⟩ := roundHalfEven_le
    (scaled number 1 ((number.log2 : Int) - (52 : Nat))).1
    (scaled number 1 ((number.log2 : Int) - (52 : Nat))).2
  constructor
  · rw [show number.log2 + 1074 = 52 + (number.log2 + 1022) by omega, Nat.pow_add]
    exact Nat.mul_le_mul_right _ (Nat.le_trans least above)
  · rw [show number.log2 + 1075 = 53 + (number.log2 + 1022) by omega, Nat.pow_add]
    exact Nat.mul_le_mul_right _ (Nat.le_trans below (Nat.succ_le_of_lt greatest))

/-- A number of more binary digits is rounded to a greater power of two at least, and numbers of as
many are rounded on one grid. -/
theorem wholeUnits_mono {first second : Nat} (le : first ≤ second) :
    wholeUnits first ≤ wholeUnits second := by
  by_cases zero : first = 0
  · rw [zero, wholeUnits_zero]
    exact Nat.zero_le _
  have positive : second ≠ 0 := by omega
  have logarithms : first.log2 ≤ second.log2 :=
    (Nat.le_log2 positive).mpr (Nat.le_trans (Nat.log2_self_le zero) le)
  obtain same | longer := Nat.eq_or_lt_of_le logarithms
  · obtain ⟨lower, upper⟩ := scaled_mono ((second.log2 : Int) - (52 : Nat)) le
    unfold wholeUnits
    rw [same, lower]
    exact Nat.mul_le_mul_right _ (roundHalfEven_mono _ upper)
  · calc wholeUnits first
      _ ≤ 2 ^ (first.log2 + 1075) := (wholeUnits_bounds zero).2
      _ ≤ 2 ^ (second.log2 + 1074) := Nat.pow_le_pow_right (by decide) (by omega)
      _ ≤ wholeUnits second := (wholeUnits_bounds positive).1

def withSign (negative : Bool) (magnitude : Nat) : Int :=
  if negative then -magnitude else magnitude

/-- The double of an integer in units of the least positive double. -/
def unitsOf (value : Int) : Int :=
  withSign (value < 0) (wholeUnits value.natAbs)

theorem natAbs_withSign (negative : Bool) (magnitude : Nat) :
    (withSign negative magnitude).natAbs = magnitude := by
  cases negative with
  | false => exact Int.natAbs_natCast magnitude
  | true => exact (Int.natAbs_neg _).trans (Int.natAbs_natCast magnitude)

theorem unitsOf_withSign (negative : Bool) (magnitude : Nat) :
    unitsOf (withSign negative magnitude) = withSign negative (wholeUnits magnitude) := by
  rw [unitsOf, natAbs_withSign]
  by_cases zero : magnitude = 0
  · rw [zero, wholeUnits_zero]
    cases negative <;> rfl
  · have signed : decide (withSign negative magnitude < 0) = negative := by
      cases negative with
      | false => exact decide_eq_false (Int.not_lt.mpr (Int.natCast_nonneg magnitude))
      | true => exact decide_eq_true (Int.neg_neg_of_pos (Int.natCast_pos.mpr (Nat.pos_of_ne_zero zero)))
    rw [signed]

theorem unitsOf_mono {first second : Int} (le : first ≤ second) : unitsOf first ≤ unitsOf second := by
  unfold unitsOf withSign
  by_cases below : first < 0
  · by_cases still : second < 0
    · have magnitudes : wholeUnits second.natAbs ≤ wholeUnits first.natAbs :=
        wholeUnits_mono (by omega)
      simp only [below, still, decide_true, if_true]
      omega
    · simp only [below, still, decide_true, decide_false, if_true, Bool.false_eq_true, if_false]
      omega
  · have magnitudes : wholeUnits first.natAbs ≤ wholeUnits second.natAbs :=
      wholeUnits_mono (by omega)
    have still : ¬ second < 0 := by omega
    simp only [below, still, decide_false, Bool.false_eq_true, if_false]
    omega

theorem units_eq (x : Binary64) :
    x.units = withSign x.negative (x.significand * 2 ^ (x.exponent + 1074).toNat) := by
  unfold units withSign
  simp only [Nat.pow_eq, Int.natCast_mul]

theorem carried_units {rounded : Nat} {exponent : Int} (above : -1074 ≤ exponent) :
    (if rounded = 0x20000000000000 then (0x10000000000000, exponent + 1)
        else (rounded, exponent)).1 *
      2 ^ ((if rounded = 0x20000000000000 then (0x10000000000000, exponent + 1)
        else (rounded, exponent)).2 + 1074).toNat =
      rounded * 2 ^ (exponent + 1074).toNat := by
  split
  next carried =>
    simp only
    rw [carried, show (exponent + 1 + 1074).toNat = 1 + (exponent + 1074).toNat by omega,
      Nat.pow_add, ← Nat.mul_assoc]
  next kept => rfl

/-- A whole number of up to 1023 binary digits has a double. -/
theorem ofRatio_whole (negative : Bool) {number digits : Nat} (small : number < 2 ^ digits)
    (room : digits ≤ 1023) :
    ∃ x, ofRatio negative number 1 = some x ∧ x.units = withSign negative (wholeUnits number) := by
  unfold ofRatio
  split
  next zero =>
    refine ⟨_, rfl, ?_⟩
    rw [units_eq, zero, wholeUnits_zero, Binary64.zero, Nat.zero_mul]
  next positive =>
    have fits : number.log2 < digits := (Nat.log2_lt positive).mpr small
    obtain ⟨least, greatest⟩ := scaled_digits positive 52
    obtain ⟨above, below⟩ := roundHalfEven_le
      (scaled number 1 ((number.log2 : Int) - (52 : Nat))).1
      (scaled number 1 ((number.log2 : Int) - (52 : Nat))).2
    have canonical := canonical_rounded (Nat.le_trans least above)
      (Nat.le_trans below (Nat.succ_le_of_lt greatest))
      (show -1074 ≤ (number.log2 : Int) - (52 : Nat) by omega) (by omega)
    simp only [fittingExponent_eq positive]
    rw [dif_pos canonical]
    refine ⟨_, rfl, ?_⟩
    rw [units_eq]
    simp only
    rw [carried_units (by omega), wholeUnits,
      show ((number.log2 : Int) - (52 : Nat) + 1074).toNat = number.log2 + 1022 by omega]

theorem ofRatio_isSome (negative : Bool) {number digits : Nat} (small : number < 2 ^ digits)
    (room : digits ≤ 1023) : (ofRatio negative number 1).isSome = true := by
  obtain ⟨x, rounds, -⟩ := ofRatio_whole negative small room
  exact Option.isSome_iff_exists.mpr ⟨x, rounds⟩

theorem ofDecimal_whole (negative : Bool) {digits : Nat} (small : digits < 2 ^ 128) :
    ofDecimal negative digits 0 = ofRatio negative digits 1 := by
  have short : (Nat.toDigits 10 digits).length ≤ 39 :=
    (Nat.length_toDigits_le_iff (by decide) (by decide)).mpr (Nat.lt_trans small (by decide))
  unfold ofDecimal
  simp only
  rw [if_neg (c := _ < _) (by omega)]
  split
  next zero =>
    subst zero
    rfl
  · rw [if_neg (by omega), if_pos (by decide)]
    simp only [Int.toNat_zero, Nat.pow_eq, Nat.pow_zero, Nat.mul_one]

theorem isDigit_of_decimalDigit? {c : Char} {digit : Nat} (read : decimalDigit? c = some digit) :
    c.isDigit = true := by
  unfold decimalDigit? at read
  split at read
  · assumption
  · cases read

theorem isDigit_of_natural? {chars : List Char} {number : Nat} (read : natural? chars = some number) :
    chars ≠ [] ∧ ∀ c ∈ chars, c.isDigit = true := by
  unfold natural? at read
  split at read
  · cases read
  next some =>
    refine ⟨fun empty => some (empty ▸ rfl), ?_⟩
    obtain ⟨digits, all, -⟩ := Option.map_eq_some_iff.mp read
    clear read some
    induction chars generalizing digits with
    | nil => simp
    | cons c chars ih =>
      rw [List.mapM_cons] at all
      obtain ⟨digit, first, more⟩ := Option.bind_eq_some_iff.mp all
      obtain ⟨rest, others, -⟩ := Option.bind_eq_some_iff.mp more
      exact List.forall_mem_cons.mpr ⟨isDigit_of_decimalDigit? first, ih rest others⟩

theorem magnitude?_natural (negative : Bool) {chars : List Char} {number : Nat}
    (read : natural? chars = some number) :
    magnitude? negative chars = some (ofDecimal negative number 0) := by
  have digits := (isDigit_of_natural? read).2
  simp only [magnitude?, List.takeWhile_eq_self_iff.mpr digits, List.dropWhile_eq_nil_iff.mpr digits,
    List.append_nil, read]
  rfl

theorem toLower_of_isDigit {c : Char} (digit : c.isDigit = true) : c.toLower = c := by
  simp only [Char.isDigit, Bool.and_eq_true, decide_eq_true_eq] at digit
  unfold Char.toLower
  rw [dif_neg]
  rintro ⟨low, -⟩
  exact absurd (UInt32.le_trans low digit.2) (by decide)

/-- No name of infinity or of no number begins with a digit. -/
theorem not_name_of_isDigit {chars : List Char} (some : chars ≠ [])
    (digits : ∀ c ∈ chars, c.isDigit = true) :
    String.ofList (chars.map Char.toLower) ∉ ["inf", "infinity", "nan"] := by
  cases chars with
  | nil => exact absurd rfl some
  | cons c rest =>
    have digit := digits c List.mem_cons_self
    rw [List.map_cons, toLower_of_isDigit digit]
    intro named
    simp only [List.mem_cons, List.not_mem_nil, or_false, ← String.toList_inj,
      String.toList_ofList] at named
    obtain same | same | same := named
    all_goals
      rw [(List.cons.inj same).1] at digit
      exact absurd digit (by decide)

/-- The ways to write a whole number: with its sign, or without one that is not negative. -/
def signings (negative : Bool) (digits : List Char) : List (List Char) :=
  if negative then ['-' :: digits] else [digits, '+' :: digits]

/-- The digits of a number of 128 bits read as the double of the number, however they are signed. -/
theorem ofText?_natural {negative : Bool} {digits chars : List Char} {number : Nat}
    (read : natural? digits = some number) (small : number < 2 ^ 128)
    (signed : chars ∈ signings negative digits) :
    ofText? chars = some (ofRatio negative number 1) := by
  obtain ⟨nonempty, all⟩ := isDigit_of_natural? read
  have body (negative : Bool) :
      (if String.ofList (digits.map Char.toLower) ∈ ["inf", "infinity", "nan"] then some none
        else magnitude? negative digits) = some (ofRatio negative number 1) := by
    rw [if_neg (not_name_of_isDigit nonempty all), magnitude?_natural negative read,
      ofDecimal_whole negative small]
  cases negative with
  | true =>
    rw [List.mem_singleton.mp signed]
    exact body true
  | false =>
    obtain rfl | rfl : chars = digits ∨ chars = '+' :: digits := by simpa [signings] using signed
    · cases chars with
      | nil => exact absurd rfl nonempty
      | cons c rest =>
        have noSign (sign : Char) (other : sign.isDigit = false) : c ≠ sign :=
          fun same => absurd (same ▸ all c List.mem_cons_self) (by simp [other])
        have minus := noSign '-' (by decide)
        have plus := noSign '+' (by decide)
        unfold ofText?
        split
        next shape =>
          split at shape
          next same => exact absurd (List.cons.inj same).1 minus
          next same => exact absurd (List.cons.inj same).1 plus
          next =>
            obtain ⟨rfl, rfl⟩ := Prod.mk.inj shape
            exact body false
    · exact body false

end Workflow.Binary64

namespace Workflow.Json

open Text

theorem signedInteger?_eq_some {chars : List Char} {value : Int}
    (read : signedInteger? chars = some value) :
    ∃ negative digits, chars ∈ Binary64.signings negative digits ∧
      natural? digits = some value.natAbs ∧ value = Binary64.withSign negative value.natAbs := by
  have unsigned {digits : List Char} (read : (natural? digits).map Int.ofNat = some value) :
      natural? digits = some value.natAbs ∧ value = Binary64.withSign false value.natAbs := by
    obtain ⟨number, natural, rfl⟩ := Option.map_eq_some_iff.mp read
    exact ⟨natural, rfl⟩
  unfold signedInteger? at read
  split at read
  next digits =>
    obtain ⟨_, positive, rfl⟩ := Option.map_eq_some_iff.mp read
    obtain ⟨number, natural, same⟩ := Option.bind_eq_some_iff.mp positive
    cases same
    exact ⟨true, digits, by simp [Binary64.signings], by simpa using natural,
      by simp [Binary64.withSign]⟩
  next digits => exact ⟨false, digits, by simp [Binary64.signings], unsigned read⟩
  next => exact ⟨false, chars, by simp [Binary64.signings], unsigned read⟩

/-- An exact integer has a double besides, that of the integer: nothing of 128 bits is too large. -/
theorem real?_of_integer? {value : Json} {exact : Int} (read : value.integer? = some exact) :
    ∃ x, value.real? = some x ∧ x.units = Binary64.unitsOf exact := by
  cases value with
  | number number =>
    cases number with
    | integer whole inRange =>
      cases read
      have small : exact.natAbs < 2 ^ 65 := by
        unfold InRange at inRange
        omega
      exact Binary64.ofRatio_whole (exact < 0) small (by decide)
    | real => cases read
  | string text =>
    obtain ⟨signed, digits, kept⟩ := Option.bind_eq_some_iff.mp read
    split at kept
    next fits =>
      cases kept
      obtain ⟨negative, digits, written, natural, same⟩ := signedInteger?_eq_some digits
      have small : exact.natAbs < 2 ^ 128 := by omega
      obtain ⟨x, rounds, units⟩ := Binary64.ofRatio_whole negative small (by decide)
      refine ⟨x, ?_, ?_⟩
      · rw [real?, Binary64.ofText?_natural natural small written, rounds]
        rfl
      · calc x.units
          _ = Binary64.unitsOf (Binary64.withSign negative exact.natAbs) :=
            units.trans (Binary64.unitsOf_withSign negative exact.natAbs).symm
          _ = Binary64.unitsOf exact := by rw [← same]
    next => cases kept
  | null | bool | array | object => cases read

end Workflow.Json
