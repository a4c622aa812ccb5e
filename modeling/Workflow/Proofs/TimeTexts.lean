import Mathlib.Algebra.Group.Nat.Defs
import Mathlib.Tactic.ByContra
import Workflow.Proofs.Literals
import Workflow.Timestamp.Text

/-! Time stamps are read back from their texts. A day is found in its year because years are counted
off without gaps: the year of a day never falls, and both ends of a year belong to it. -/

namespace Workflow

namespace Date

/-- The first day of a year of an era, in years that begin in March. -/
def firstDay (year : Nat) : Nat :=
  365 * year + year / 4 - year / 100

def yearOfDay (day : Nat) : Nat :=
  (day - day / 1460 + day / 36524 - day / 146096) / 365

theorem yearOfDay_ends : ∀ year < 400,
    yearOfDay (firstDay year) = year ∧ yearOfDay (firstDay (year + 1) - 1) = year := by
  decide +kernel

theorem yearOfDay_succ {day : Nat} (within : day < 146096) :
    yearOfDay day ≤ yearOfDay (day + 1) := by
  unfold yearOfDay
  refine Nat.div_le_div_right ?_
  omega

theorem yearOfDay_mono {first last : Nat} (le : first ≤ last) (within : last < 146097) :
    yearOfDay first ≤ yearOfDay last := by
  induction le with
  | refl => exact Nat.le_refl _
  | step _ ih => exact Nat.le_trans (ih (by omega)) (yearOfDay_succ (by omega))

/-- Where in an era a day is. The last day of the era is one more of its last year. -/
theorem yearOfDay_spec {day : Nat} (within : day < 146097) :
    yearOfDay day < 400 ∧ firstDay (yearOfDay day) ≤ day ∧
      (day < firstDay (yearOfDay day + 1) ∨ yearOfDay day = 399 ∧ day = 146096) := by
  have last : yearOfDay day ≤ 399 :=
    yearOfDay_mono (Nat.le_of_lt_succ within) (by decide)
  refine ⟨Nat.lt_succ_of_le last, ?_, ?_⟩
  · by_contra early
    cases same : yearOfDay day with
    | zero =>
      rw [same] at early
      exact early (Nat.zero_le _)
    | succ year =>
      rw [same] at early last
      have bounded : firstDay (year + 1) - 1 < 146097 := by
        unfold firstDay
        omega
      have before := yearOfDay_mono (Nat.le_sub_one_of_lt (Nat.lt_of_not_le early)) bounded
      rw [(yearOfDay_ends year (by omega)).2] at before
      omega
  · by_contra late
    obtain ⟨after, other⟩ := not_or.mp late
    have inner : yearOfDay day + 1 < 400 := by
      unfold firstDay at after
      omega
    have reached := yearOfDay_mono (Nat.le_of_not_lt after) within
    rw [(yearOfDay_ends _ inner).1] at reached
    omega

theorem firstDay_succ {year day : Nat} (started : firstDay year ≤ day)
    (within : day < firstDay (year + 1) ∨ year = 399 ∧ day = 146096) :
    day - firstDay year < 366 ∧ (day - firstDay year = 365 →
      (year + 1) % 4 = 0 ∧ (year + 1) % 100 ≠ 0 ∨ year = 399) := by
  unfold firstDay at *
  omega

/-- A day by the year of an era, the month and the day of the month, in years that begin in March.
Only the last month is longer in some years. -/
structure InEra (days era : Int) (year month day : Nat) : Prop where
  placed : days + 719468 = era * 146097 + (firstDay year + ((153 * month + 2) / 5 + day) : Nat)
  inEra : year < 400
  inYear : month < 12
  inMonth : 5 * ((153 * month + 2) / 5 + day) + 2 < 153 * (month + 1)
  leap : month = 11 → 28 ≤ day → day = 28 ∧
    ((year + 1) % 4 = 0 ∧ (year + 1) % 100 ≠ 0 ∨ year = 399)

theorem ofDays_inEra (days : Int) : ∃ era year month day, InEra days era year month day ∧
    ofDays days = ⟨if 10 ≤ month then era * 400 + year + 1 else era * 400 + year,
      if 10 ≤ month then month - 9 else month + 3, day + 1⟩ := by
  let dayOfEra := ((days + 719468) % 146097).toNat
  obtain ⟨inEra, started, within⟩ := @yearOfDay_spec dayOfEra (by omega)
  let year := yearOfDay dayOfEra
  let dayOfYear := dayOfEra - firstDay year
  let month := (5 * dayOfYear + 2) / 153
  obtain ⟨short, leap⟩ : dayOfYear < 366 ∧ (dayOfYear = 365 →
      (year + 1) % 4 = 0 ∧ (year + 1) % 100 ≠ 0 ∨ year = 399) := firstDay_succ started within
  have whole : firstDay year + dayOfYear = dayOfEra := Nat.add_sub_of_le started
  refine ⟨(days + 719468) / 146097, year, month, dayOfYear - (153 * month + 2) / 5,
    ⟨?_, inEra, ?_, ?_, ?_⟩, ?_⟩
  · omega
  · omega
  · omega
  · intro february
    omega
  · have shape : ofDays days = ⟨if (if month < 10 then month + 3 else month - 9) ≤ 2 then
        (days + 719468) / 146097 * 400 + year + 1 else (days + 719468) / 146097 * 400 + year,
      if month < 10 then month + 3 else month - 9, dayOfYear - (153 * month + 2) / 5 + 1⟩ := rfl
    rw [shape]
    by_cases late : 10 ≤ month
    · have other : ¬ month < 10 := Nat.not_lt_of_le late
      have early : month - 9 ≤ 2 := by omega
      simp only [late, other, early, if_true, if_false]
    · have other : month < 10 := Nat.lt_of_not_le late
      have early : ¬ month + 3 ≤ 2 := by omega
      simp only [late, other, early, if_true, if_false]

theorem toDays_ofDays (days : Int) : (ofDays days).toDays = days := by
  obtain ⟨era, year, month, day, there, shape⟩ := ofDays_inEra days
  obtain ⟨placed, inEra, inYear, inMonth, _⟩ := there
  have years : (era * 400 + (year : Int)) / 400 = era ∧ (era * 400 + (year : Int)) % 400 = year := by
    omega
  unfold firstDay at placed
  rw [shape, toDays]
  by_cases late : 10 ≤ month
  · have early : month - 9 ≤ 2 := by omega
    have march : (month - 9 + 9) % 12 = month := by omega
    simp only [late, early, if_true, dayOfMarchYear, march, Int.add_sub_cancel, years]
    omega
  · have early : ¬ month + 3 ≤ 2 := by omega
    have march : (month + 3 + 9) % 12 = month := by omega
    simp only [late, early, if_false, dayOfMarchYear, march, years]
    omega

theorem ofDays_valid (days : Int) : (ofDays days).Valid := by
  obtain ⟨era, year, month, day, there, shape⟩ := ofDays_inEra days
  obtain ⟨_, inEra, inYear, inMonth, leap⟩ := there
  rw [shape]
  by_cases february : month = 11
  · subst february
    have long : 28 ≤ day → isLeapYear (era * 400 + year + 1) = true := by
      intro last
      obtain ⟨_, leaps⟩ := leap rfl last
      simp only [isLeapYear, Bool.or_eq_true, Bool.and_eq_true, beq_iff_eq, bne_iff_ne]
      omega
    change 1 ≤ 2 ∧ 2 ≤ 12 ∧ 1 ≤ day + 1 ∧
      day + 1 ≤ if isLeapYear (era * 400 + year + 1) = true then 29 else 28
    by_cases last : 28 ≤ day
    · rw [if_pos (long last), (leap rfl last).1]
      decide
    · split <;> omega
  · -- No other month is two.
    have other : ∀ number, number ≠ 2 → daysInMonth (if 10 ≤ month then era * 400 + year + 1
        else era * 400 + year) number =
          if number = 4 ∨ number = 6 ∨ number = 9 ∨ number = 11 then 30 else 31 :=
      fun number different => if_neg different
    by_cases late : 10 ≤ month
    · simp only [late, if_true] at other ⊢
      change 1 ≤ month - 9 ∧ month - 9 ≤ 12 ∧ 1 ≤ day + 1 ∧ day + 1 ≤ daysInMonth _ (month - 9)
      rw [other _ (by omega)]
      split <;> omega
    · simp only [late, if_false] at other ⊢
      change 1 ≤ month + 3 ∧ month + 3 ≤ 12 ∧ 1 ≤ day + 1 ∧ day + 1 ≤ daysInMonth _ (month + 3)
      rw [other _ (by omega)]
      split <;> omega

end Date

namespace Text

theorem isDigit_padded {width value : Nat} : ∀ c ∈ padded width value, c.isDigit = true := by
  intro c member
  rcases List.mem_append.mp member with zero | digit
  · rw [(List.mem_replicate.mp zero).2]
    rfl
  · exact Json.isDigit_decimal value c digit

theorem padded_ne_nil {width value : Nat} : padded width value ≠ [] := by
  intro empty
  exact Nat.toDigits_ne_nil (List.append_eq_nil_iff.mp empty).2

theorem length_padded {width value : Nat} (positive : 0 < width) (fits : value < 10 ^ width) :
    (padded width value).length = width := by
  have short := (Nat.length_toDigits_le_iff (by decide) positive).mpr fits
  rw [padded, List.length_append, List.length_replicate]
  exact Nat.sub_add_cancel short

theorem mapM_decimalDigit? {digits : List Char} (all : ∀ c ∈ digits, c.isDigit = true) :
    digits.mapM decimalDigit? = some (Json.Draft.digitsOf digits) := by
  induction digits with
  | nil => rfl
  | cons c rest ih =>
    obtain ⟨first, others⟩ := List.forall_mem_cons.mp all
    rw [List.mapM_cons, decimalDigit?, if_pos first, ih others]
    rfl

theorem ofDigits_padded (width value : Nat) :
    ofDigits 10 (Json.Draft.digitsOf (padded width value)) = value := by
  have leading (count : Nat) (digits : List Nat) :
      ofDigits 10 (List.replicate count 0 ++ digits) = ofDigits 10 digits := by
    induction count with
    | zero => rfl
    | succ count ih => exact ih
  have shape : Json.Draft.digitsOf (padded width value) =
      List.replicate (width - (decimal value).length) 0 ++ Json.Draft.digitsOf (decimal value) := by
    rw [Json.Draft.digitsOf, padded, List.map_append, List.map_replicate]
    rfl
  rw [shape, leading, Json.ofDigits_decimal]

theorem natural?_padded (width value : Nat) : natural? (padded width value) = some value := by
  have some : (padded width value).isEmpty = false := by
    rw [List.isEmpty_eq_false_iff]
    exact padded_ne_nil
  rw [natural?, some, mapM_decimalDigit? isDigit_padded, Option.map_some, ofDigits_padded]
  rfl

theorem isBlank_of_isDigit {c : Char} (digit : c.isDigit = true) : isBlank c = false := by
  simp only [Char.isDigit, Bool.and_eq_true, decide_eq_true_eq] at digit
  have bounds : 48 ≤ c.toNat ∧ c.toNat ≤ 57 := digit
  simp [isBlank]
  omega

theorem isDigit_append {width value : Nat} {c : Char} {after rest : List Char}
    (shape : padded width value ++ rest = c :: after) : c.isDigit = true := by
  cases digits : padded width value with
  | nil => exact absurd digits padded_ne_nil
  | cons first others =>
    rw [digits] at shape
    rw [← (List.cons.inj shape).1]
    exact isDigit_padded first (digits ▸ List.mem_cons_self)

theorem trimStart_padded (width value : Nat) (rest : List Char) :
    trimStart (padded width value ++ rest) = padded width value ++ rest := by
  cases shape : padded width value ++ rest with
  | nil => exact absurd (List.append_eq_nil_iff.mp shape).1 padded_ne_nil
  | cons c after =>
    refine List.dropWhile_cons_of_neg ?_
    rw [isBlank_of_isDigit (isDigit_append shape)]
    exact Bool.false_ne_true

end Text

namespace Timestamp

open Text

variable {width value : Nat} {rest : List Char}

/-- A number of a fixed width is read whatever follows it. -/
theorem number?_width (positive : 0 < width) (fits : value < 10 ^ width) (rest : List Char) :
    number? (some width) (padded width value ++ rest) = some (value, rest) := by
  have long := length_padded positive fits
  have taken : ((padded width value ++ rest).takeWhile Char.isDigit).take width =
      padded width value := by
    rw [List.takeWhile_append_of_pos isDigit_padded]
    exact List.take_left' long
  simp only [number?, taken, natural?_padded, Option.map_some, List.drop_left]

theorem number?_all {mark : Char} (other : mark.isDigit = false) (rest : List Char) :
    number? none (padded width value ++ mark :: rest) = some (value, mark :: rest) := by
  have taken : (padded width value ++ mark :: rest).takeWhile Char.isDigit = padded width value := by
    have stops : ¬ mark.isDigit = true := by
      rw [other]
      exact Bool.false_ne_true
    rw [List.takeWhile_append_of_pos isDigit_padded, List.takeWhile_cons_of_neg stops,
      List.append_nil]
  simp only [number?, taken, natural?_padded, Option.map_some, List.drop_left]

theorem field?_padded (fits : value < 100) (rest : List Char) :
    field? (padded 2 value ++ rest) = some (value, rest) := by
  rw [field?, trimStart_padded]
  exact number?_width (by decide) fits rest

/-- A year of four digits is none with a sign. -/
theorem year?_padded (fits : value < 10 ^ 4) (rest : List Char) :
    year? (padded 4 value ++ rest) = some ((value : Int), rest) := by
  have read := number?_width (by decide) fits rest
  rw [year?, trimStart_padded]
  split
  next minus => exact absurd (isDigit_append minus) (by decide)
  next plus => exact absurd (isDigit_append plus) (by decide)
  next => rw [read, Option.map_some]

theorem year?_yearChars (year : Int) (rest : List Char) :
    year? (yearChars year ++ '-' :: rest) = some (year, '-' :: rest) := by
  unfold yearChars
  split
  next four =>
    rw [year?_padded (by omega), Int.toNat_of_nonneg four.1]
  next =>
    split
    next negative =>
      have read := @number?_all 4 year.natAbs '-' rfl rest
      change (number? none (padded 4 year.natAbs ++ '-' :: rest)).map _ = _
      have magnitude : -(year.natAbs : Int) = year := by omega
      simp only [read, Option.map_some, magnitude]
    next positive =>
      have read := @number?_all 5 year.natAbs '-' rfl rest
      change (number? none (padded 5 year.natAbs ++ '-' :: rest)).map _ = _
      have magnitude : (year.natAbs : Int) = year := by omega
      simp only [read, Option.map_some, magnitude]

/-- The digits of a fraction, with the zeros that are left out. -/
theorem fraction?_padded (width value : Nat) (positive : 0 < width) (short : width ≤ 9)
    (fits : value < 10 ^ width) :
    fraction? ('.' :: (padded width value ++ ['Z'])) = some (value * 10 ^ (9 - width), ['Z']) := by
  have long := length_padded positive fits
  have digits : (padded width value ++ ['Z']).takeWhile Char.isDigit = padded width value := by
    rw [List.takeWhile_append_of_pos isDigit_padded]
    exact List.append_nil _
  have kept : (padded width value).take 9 = padded width value :=
    List.take_of_length_le (long.le.trans short)
  have after : (padded width value ++ ['Z']).drop width = ['Z'] := List.drop_left' long
  simp only [fraction?, digits, kept, natural?_padded, Option.bind_eq_bind, Option.bind_some, long,
    after]
  rfl

theorem fraction?_fractionChars {nanos : Nat} (within : nanos < 1_000_000_000) :
    fraction? (fractionChars nanos ++ ['Z']) = some (nanos, ['Z']) := by
  unfold fractionChars
  split
  next none => rw [none]; rfl
  split
  next whole =>
    have same : nanos / 1_000_000 * 10 ^ (9 - 3) = nanos := by omega
    rw [List.cons_append, fraction?_padded 3 _ (by decide) (by decide) (by omega), same]
  split
  next whole =>
    have same : nanos / 1_000 * 10 ^ (9 - 6) = nanos := by omega
    rw [List.cons_append, fraction?_padded 6 _ (by decide) (by decide) (by omega), same]
  next =>
    have same : nanos * 10 ^ (9 - 9) = nanos := by omega
    rw [List.cons_append, fraction?_padded 9 _ (by decide) (by decide) within, same]

theorem date?_chars {date : Date} (valid : date.Valid) (rest : List Char) :
    date? (yearChars date.year ++ '-' :: (padded 2 date.month ++ '-' :: (padded 2 date.day ++ rest))) =
      some (date, rest) := by
  obtain ⟨_, month, _, day⟩ := valid
  have short : Date.daysInMonth date.year date.month ≤ 31 := by
    unfold Date.daysInMonth
    split
    · split <;> decide
    · split <;> decide
  rw [date?, year?_yearChars]
  change (field? (padded 2 date.month ++ '-' :: _)).bind _ = _
  rw [field?_padded (by omega)]
  change (field? (padded 2 date.day ++ rest)).bind _ = _
  rw [field?_padded (by omega)]
  rfl

/-- A second of the day that is written is read with its fraction; one past the last of a minute is
a leap second. -/
theorem time?_chars {second nanos extra : Nat} (day : second < 86400) (within : nanos < 1_000_000_000)
    (late : extra = 0 ∨ extra = 1 ∧ second % 60 = 59) :
    time? (padded 2 (second / 3600) ++ ':' :: (padded 2 (second / 60 % 60) ++
      ':' :: (padded 2 (second % 60 + extra) ++ (fractionChars nanos ++ ['Z'])))) =
        some ((second, nanos + extra * 1_000_000_000), ['Z']) := by
  rw [time?, field?_padded (by omega)]
  change (field? (padded 2 (second / 60 % 60) ++ _)).bind _ = _
  rw [field?_padded (by omega)]
  change (field? (padded 2 (second % 60 + extra) ++ _)).bind _ = _
  rw [field?_padded (by omega)]
  change (fraction? (fractionChars nanos ++ ['Z'])).bind _ = _
  rw [fraction?_fractionChars within]
  have inDay : ¬ (23 < second / 3600 ∨ 59 < second / 60 % 60 ∨ 60 < second % 60 + extra) := by omega
  have whole : second / 3600 * 3600 + second / 60 % 60 * 60 + second % 60 = second := by omega
  simp only [Option.bind_some, if_neg inDay]
  rcases late with rfl | ⟨rfl, last⟩
  · rw [if_neg (by omega), Nat.add_zero, whole, Nat.zero_mul, Nat.add_zero]
  · rw [if_pos (by omega), Nat.one_mul]
    rw [last] at whole
    rw [whole]

/-- Every time stamp is read back from its text. -/
theorem ofText?_text (time : Timestamp) : ofText? time.text = some time := by
  obtain ⟨_, _, nanosValid⟩ := time.valid
  let second := (time.seconds % 86400).toNat
  let date := Date.ofDays (time.seconds / 86400)
  obtain ⟨fraction, extra, shown, same, within, late⟩ : ∃ fraction extra,
      (if time.isLeap then (second, time.nanos - 1_000_000_000, 1) else (second, time.nanos, 0)) =
        (second, fraction, extra) ∧
      fraction + extra * 1_000_000_000 = time.nanos ∧ fraction < 1_000_000_000 ∧
      (extra = 0 ∨ extra = 1 ∧ second % 60 = 59) := by
    by_cases leap : 1_000_000_000 ≤ time.nanos
    · exact ⟨time.nanos - 1_000_000_000, 1, if_pos (decide_eq_true leap), by omega, by omega, by omega⟩
    · exact ⟨time.nanos, 0, if_neg (by simpa [isLeap] using leap), by omega, by omega, .inl rfl⟩
  have text : time.chars =
      yearChars date.year ++ '-' :: (padded 2 date.month ++ '-' :: (padded 2 date.day ++
        'T' :: (padded 2 (second / 3600) ++ ':' :: (padded 2 (second / 60 % 60) ++
          ':' :: (padded 2 (second % 60 + extra) ++ (fractionChars fraction ++ ['Z'])))))) := by
    rw [chars, shown]
    simp only [second, date, List.append_assoc, List.cons_append]
  have dated : date.toDays * 86400 + (second : Int) = time.seconds := by
    rw [Date.toDays_ofDays]
    omega
  have made : make? time.seconds time.nanos = some time := make?_eq_some.mpr ⟨rfl, rfl⟩
  rw [ofText?, Timestamp.text, String.toList_ofList, text, ofChars?,
    date?_chars (Date.ofDays_valid _)]
  change (time? (padded 2 (second / 3600) ++ _)).bind _ = _
  rw [time?_chars (by omega) within late, same]
  have zone : offset? (trimStart ['Z']) = some (0, []) := by decide
  have accepted : ¬ ((!(trimStart []).isEmpty) = true ∨ 86400 ≤ (0 : Int).natAbs ∨ ¬ date.Valid) := by
    rintro (more | far | invalid)
    · cases more
    · exact absurd far (by decide)
    · exact invalid (Date.ofDays_valid _)
  simp only [Option.bind_eq_bind, Option.bind_some, zone]
  rw [if_neg accepted, Int.sub_zero, dated, made]
  rfl

end Timestamp

end Workflow
