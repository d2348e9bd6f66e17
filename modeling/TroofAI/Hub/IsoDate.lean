import TroofAI.Base.Lines
import TroofAI.Hub.Schema

/-!
ISO text names one date.

`toISOString` puts year, month, day and the parts of the time of day between separators
that are no digits, so the text determines each of them. That they determine the day is
`civilOfDays_injective`: the day of the year, counted from 1 March, is read back from month
and day, and the day of the era from it and the year.

The hub also reads such texts: `parseDate` gives back the date that was written
(`parseDate_toISOString`), for every date JavaScript can hold.
-/

namespace TroofAI.Hub

/-! ### The calendar -/

/-- The year of an era that a day falls into begins no later than the day, and no more than
365 days before it. -/
theorem year_of_era {doe yoe : Nat} (h : doe < 146097)
    (hyoe : yoe = (doe - doe / 1460 + doe / 36524 - doe / 146096) / 365) :
    365 * yoe + yoe / 4 - yoe / 100 ≤ doe ∧ doe ≤ 365 * yoe + yoe / 4 - yoe / 100 + 365 ∧
      yoe < 400 := by
  have hcentury : doe / 36524 = 0 ∨ doe / 36524 = 1 ∨ doe / 36524 = 2 ∨ doe / 36524 = 3 ∨
      doe / 36524 = 4 := by omega
  have hlast : doe / 146096 = 0 ∨ doe / 146096 = 1 := by omega
  have hyear : yoe < 400 := by
    rcases hcentury with hc | hc | hc | hc | hc <;> rcases hlast with hl | hl <;> omega
  have hhundreds : yoe / 100 = doe / 36524 ∨ yoe / 100 + 1 = doe / 36524 := by
    rcases hcentury with hc | hc | hc | hc | hc <;> rcases hlast with hl | hl <;> omega
  refine ⟨?_, ?_, hyear⟩ <;> rcases hcentury with hc | hc | hc | hc | hc <;>
    rcases hlast with hl | hl <;> rcases hhundreds with hy | hy <;> omega

/-- Month and day determine the day of the year. -/
theorem day_of_year {doy doy' : Nat} (h : doy ≤ 365) (h' : doy' ≤ 365)
    (hmonth : (if (5 * doy + 2) / 153 < 10 then (5 * doy + 2) / 153 + 3
        else (5 * doy + 2) / 153 - 9) =
      if (5 * doy' + 2) / 153 < 10 then (5 * doy' + 2) / 153 + 3 else (5 * doy' + 2) / 153 - 9)
    (hday : doy - (153 * ((5 * doy + 2) / 153) + 2) / 5 + 1 =
      doy' - (153 * ((5 * doy' + 2) / 153) + 2) / 5 + 1) : doy = doy' := by
  have hmp : (5 * doy + 2) / 153 = (5 * doy' + 2) / 153 := by
    split at hmonth <;> split at hmonth <;> omega
  omega

theorem civilOfDays_injective : Function.Injective civilOfDays := by
  intro a b h
  simp only [civilOfDays, Prod.mk.injEq] at h
  obtain ⟨hyear, hmonth, hday⟩ := h
  obtain ⟨ha₁, ha₂, ha₃⟩ :=
    year_of_era (Nat.mod_lt (a + 719468) (by omega : 0 < 146097)) rfl
  obtain ⟨hb₁, hb₂, hb₃⟩ :=
    year_of_era (Nat.mod_lt (b + 719468) (by omega : 0 < 146097)) rfl
  have hea := Nat.div_add_mod (a + 719468) 146097
  have heb := Nat.div_add_mod (b + 719468) 146097
  generalize (a + 719468) % 146097 = doe at *
  generalize (b + 719468) % 146097 = doe' at *
  generalize (a + 719468) / 146097 = era at *
  generalize (b + 719468) / 146097 = era' at *
  generalize (doe - doe / 1460 + doe / 36524 - doe / 146096) / 365 = yoe at *
  generalize (doe' - doe' / 1460 + doe' / 36524 - doe' / 146096) / 365 = yoe' at *
  have hdoy := day_of_year (by omega) (by omega) hmonth hday
  -- January and February belong to the year before, in both dates or in neither
  rw [hmonth] at hyear
  generalize (if (5 * (doe' - (365 * yoe' + yoe' / 4 - yoe' / 100)) + 2) / 153 < 10 then
    (5 * (doe' - (365 * yoe' + yoe' / 4 - yoe' / 100)) + 2) / 153 + 3 else
    (5 * (doe' - (365 * yoe' + yoe' / 4 - yoe' / 100)) + 2) / 153 - 9) = month at hyear
  have hy : yoe + era * 400 = yoe' + era' * 400 := by
    by_cases hle : month ≤ 2 <;> simp only [hle, ↓reduceIte] at hyear <;> omega
  obtain rfl : era = era' := by omega
  obtain rfl : yoe = yoe' := by omega
  omega

/-! ### The text -/

/-- The first piece of `toISOString`. -/
def yearText (year : Nat) : String := if year ≤ 9999 then padNat 4 year else "+" ++ padNat 6 year

theorem yearText_injective : Function.Injective yearText := by
  intro y y' h
  have hsign : ∀ n m, padNat 4 n ≠ "+" ++ padNat 6 m := by
    intro n m heq
    refine padNat_not_mem (c := '+') rfl 4 n ?_
    rw [heq, String.toList_append]
    exact List.mem_append_left _ (by decide)
  unfold yearText at h
  split at h <;> split at h
  · exact padNat_injective 4 h
  · exact absurd h (hsign y y')
  · exact absurd h.symm (hsign y' y)
  · exact padNat_injective 6 ((String.append_right_inj _).mp h)

theorem yearText_dash (year : Nat) : '-' ∉ (yearText year).toList := by
  unfold yearText
  split
  · exact padNat_not_mem rfl 4 year
  · rw [String.toList_append, List.mem_append]
    rintro (h | h)
    · exact absurd h (by decide)
    · exact padNat_not_mem rfl 6 year h

theorem toISOString_injective : Function.Injective toISOString := by
  intro t t' h
  have hyear : ∀ y, (if y ≤ 9999 then padNat 4 y else "+" ++ padNat 6 y) = yearText y :=
    fun _ => rfl
  simp only [toISOString, hyear, String.append_assoc] at h
  have hdigits : ∀ {c : Char}, c.isDigit = false → ∀ width n, c ∉ (padNat width n).toList :=
    padNat_not_mem
  obtain ⟨hyear, h⟩ := piece_inj (c := '-') rfl (yearText_dash _) (yearText_dash _) h
  obtain ⟨hmonth, h⟩ := piece_inj (c := '-') rfl (hdigits rfl _ _) (hdigits rfl _ _) h
  obtain ⟨hday, h⟩ := piece_inj (c := 'T') rfl (hdigits rfl _ _) (hdigits rfl _ _) h
  obtain ⟨hhour, h⟩ := piece_inj (c := ':') rfl (hdigits rfl _ _) (hdigits rfl _ _) h
  obtain ⟨hminute, h⟩ := piece_inj (c := ':') rfl (hdigits rfl _ _) (hdigits rfl _ _) h
  obtain ⟨hsecond, h⟩ := piece_inj (c := '.') rfl (hdigits rfl _ _) (hdigits rfl _ _) h
  have hmilli := padNat_injective 3 ((String.append_left_inj _).mp h)
  have hcivil : civilOfDays (t / 86400000) = civilOfDays (t' / 86400000) :=
    Prod.ext (yearText_injective hyear)
      (Prod.ext (padNat_injective 2 hmonth) (padNat_injective 2 hday))
  have hdays := civilOfDays_injective hcivil
  have hh := padNat_injective 2 hhour
  have hm := padNat_injective 2 hminute
  have hs := padNat_injective 2 hsecond
  unfold Date at *
  omega

/-! ### Reading -/

/-- The days from 0000-03-01 to a day of the proleptic Gregorian calendar. -/
def dayNumber (year month day : Nat) : Nat :=
  let y := if month ≤ 2 then year - 1 else year
  let mp := if month ≤ 2 then month + 9 else month - 3
  let doy := (153 * mp + 2) / 5 + day - 1
  y / 400 * 146097 + (365 * (y % 400) + y % 400 / 4 - y % 400 / 100 + doy)

/-- A day is given by the year it belongs to, when years begin on 1 March, and its number there. -/
theorem civilOfDays_eq (days : Nat) : ∃ y doy, doy ≤ 365 ∧
    days + 719468 = y / 400 * 146097 + (365 * (y % 400) + y % 400 / 4 - y % 400 / 100 + doy) ∧
    y / 400 = (days + 719468) / 146097 ∧
    civilOfDays days = (if (5 * doy + 2) / 153 < 10 then y else y + 1,
      if (5 * doy + 2) / 153 < 10 then (5 * doy + 2) / 153 + 3 else (5 * doy + 2) / 153 - 9,
      doy - (153 * ((5 * doy + 2) / 153) + 2) / 5 + 1) := by
  obtain ⟨hbegins, hlast, hyoe⟩ :=
    year_of_era (Nat.mod_lt (days + 719468) (by omega : 0 < 146097)) rfl
  have hday := Nat.div_add_mod (days + 719468) 146097
  simp only [civilOfDays]
  generalize (days + 719468) % 146097 = doe at *
  generalize (days + 719468) / 146097 = era at *
  generalize (doe - doe / 1460 + doe / 36524 - doe / 146096) / 365 = yoe at *
  have hdoy : doe - (365 * yoe + yoe / 4 - yoe / 100) ≤ 365 := by omega
  have hyear : (yoe + era * 400) % 400 = yoe := by omega
  have hera : (yoe + era * 400) / 400 = era := by omega
  refine ⟨yoe + era * 400, doe - (365 * yoe + yoe / 4 - yoe / 100), hdoy, ?_, hera, ?_⟩
  · rw [hyear, hera]
    omega
  · generalize doe - (365 * yoe + yoe / 4 - yoe / 100) = doy at *
    by_cases hmp : (5 * doy + 2) / 153 < 10
    · have hmonth : ¬ (5 * doy + 2) / 153 + 3 ≤ 2 := by omega
      simp only [if_pos hmp, if_neg hmonth]
    · have hmonth : (5 * doy + 2) / 153 - 9 ≤ 2 := by omega
      simp only [if_neg hmp, if_pos hmonth]

/-- What the parts of a date from 1970 on can be. -/
theorem civilOfDays_bounds (days : Nat) :
    1970 ≤ (civilOfDays days).1 ∧
      (civilOfDays days).1 ≤ (days + 719468) / 146097 * 400 + 400 ∧
      1 ≤ (civilOfDays days).2.1 ∧ (civilOfDays days).2.1 ≤ 12 ∧
      1 ≤ (civilOfDays days).2.2 ∧ (civilOfDays days).2.2 ≤ 31 := by
  obtain ⟨y, doy, hdoy, hdays, hera, hcivil⟩ := civilOfDays_eq days
  rw [hcivil, ← hera]
  simp only
  by_cases hmp : (5 * doy + 2) / 153 < 10
  · simp only [if_pos hmp]
    omega
  · simp only [if_neg hmp]
    omega

theorem dayNumber_civilOfDays (days : Nat) :
    dayNumber (civilOfDays days).1 (civilOfDays days).2.1 (civilOfDays days).2.2 =
      days + 719468 := by
  obtain ⟨y, doy, hdoy, hdays, -, hcivil⟩ := civilOfDays_eq days
  rw [hcivil, hdays]
  have hfirst : (153 * ((5 * doy + 2) / 153) + 2) / 5 +
      (doy - (153 * ((5 * doy + 2) / 153) + 2) / 5 + 1) - 1 = doy := by omega
  -- the months from March on belong to the year that began then
  by_cases hmp : (5 * doy + 2) / 153 < 10
  · have hmonth : ¬ (5 * doy + 2) / 153 + 3 ≤ 2 := by omega
    have hback : (5 * doy + 2) / 153 + 3 - 3 = (5 * doy + 2) / 153 := by omega
    simp only [dayNumber, if_pos hmp, if_neg hmonth, hback, hfirst]
  · have hmonth : (5 * doy + 2) / 153 - 9 ≤ 2 := by omega
    have hback : (5 * doy + 2) / 153 - 9 + 9 = (5 * doy + 2) / 153 := by omega
    have hyear : y + 1 - 1 = y := by omega
    simp only [dayNumber, if_neg hmp, if_pos hmonth, hback, hyear, hfirst]

/-- Exactly `n` decimal digits. -/
def readDigits (n : Nat) (s : List Char) : Option (Nat × List Char) :=
  if (s.take n).length = n && (s.take n).all Char.isDigit then
    some (Nat.ofDigitChars 10 (s.take n) 0, s.drop n)
  else none

theorem length_padNat {width n : Nat} (hwidth : 0 < width) (h : n < 10 ^ width) :
    (padNat width n).length = width := by
  have hdigits := (Nat.length_toDigits_le_iff (b := 10) (by omega) hwidth).mpr h
  unfold padNat
  simp only [String.length_ofList, List.length_append, List.length_replicate]
  omega

/-- A number that has been written with a fixed width is read back. -/
theorem readDigits_padNat {width n : Nat} (hwidth : 0 < width) (h : n < 10 ^ width)
    (rest : List Char) :
    readDigits width ((padNat width n).toList ++ rest) = some (n, rest) := by
  have hlength : (padNat width n).toList.length = width := by
    rw [String.length_toList, length_padNat hwidth h]
  have hall : (padNat width n).toList.all Char.isDigit = true :=
    List.all_eq_true.mpr padNat_isDigit
  have hvalue : Nat.ofDigitChars 10 (padNat width n).toList 0 = n := by
    simp [padNat, Nat.ofDigitChars_append, Nat.ofDigitChars_replicate_zero,
      Nat.ofDigitChars_ten_toDigits]
  unfold readDigits
  rw [List.take_left' hlength, List.drop_left' hlength, hlength, hall, hvalue]
  simp

/-- The character `c`. -/
def skipChar (c : Char) : List Char → Option (List Char)
  | [] => none
  | d :: s => if d = c then some s else none

@[simp] theorem skipChar_self (c : Char) (s : List Char) : skipChar c (c :: s) = some s :=
  if_pos rfl

/-- Four digits, or a sign and six. -/
def readYear : List Char → Option (Nat × List Char)
  | '+' :: s => readDigits 6 s
  | s => readDigits 4 s

theorem readYear_yearText {year : Nat} (h : year < 1000000) (rest : List Char) :
    readYear ((yearText year).toList ++ rest) = some (year, rest) := by
  unfold yearText
  split
  · next hfour =>
    have hread := @readDigits_padNat 4 year (by omega) (by omega) rest
    -- the text begins with a digit
    have hdigit := @padNat_isDigit 4 year
    generalize (padNat 4 year).toList ++ rest = s at hread
    unfold readYear
    split
    · next s' =>
      have : readDigits 4 ('+' :: s') = none := by
        unfold readDigits
        rw [if_neg]
        simp
      rw [this] at hread
      cases hread
    · exact hread
  · rw [String.toList_append]
    exact readDigits_padNat (by omega) h rest

/-- What an ISO text spells out. -/
structure DateParts where
  year : Nat
  month : Nat
  day : Nat
  hour : Nat
  minute : Nat
  second : Nat
  milli : Nat
deriving DecidableEq, Repr

def readParts (text : String) : Option DateParts := do
  let (year, s) ← readYear text.toList
  let (month, s) ← readDigits 2 (← skipChar '-' s)
  let (day, s) ← readDigits 2 (← skipChar '-' s)
  let (hour, s) ← readDigits 2 (← skipChar 'T' s)
  let (minute, s) ← readDigits 2 (← skipChar ':' s)
  let (second, s) ← readDigits 2 (← skipChar ':' s)
  let (milli, s) ← readDigits 3 (← skipChar '.' s)
  if s = ['Z'] then some ⟨year, month, day, hour, minute, second, milli⟩ else none

namespace DateParts

/-- The parts are those of a date from 1970 on. -/
def valid (p : DateParts) : Bool :=
  1970 ≤ p.year && 1 ≤ p.month && p.month ≤ 12 && 1 ≤ p.day && p.day ≤ 31 && p.hour ≤ 23 &&
    p.minute ≤ 59 && p.second ≤ 59

def time (p : DateParts) : Date :=
  (dayNumber p.year p.month p.day - 719468) * 86400000 +
    (p.hour * 3600000 + p.minute * 60000 + p.second * 1000 + p.milli)

/-- The parts that `toISOString` writes. -/
def of (t : Date) : DateParts where
  year := (civilOfDays (t / 86400000)).1
  month := (civilOfDays (t / 86400000)).2.1
  day := (civilOfDays (t / 86400000)).2.2
  hour := t % 86400000 / 3600000
  minute := t % 86400000 / 60000 % 60
  second := t % 86400000 / 1000 % 60
  milli := t % 86400000 % 1000

theorem valid_of (t : Date) : (of t).valid = true := by
  obtain ⟨hyear, -, hmonth₁, hmonth₂, hday₁, hday₂⟩ := civilOfDays_bounds (t / 86400000)
  obtain ⟨hhour, hminute, hsecond⟩ : t % 86400000 / 3600000 ≤ 23 ∧
      t % 86400000 / 60000 % 60 ≤ 59 ∧ t % 86400000 / 1000 % 60 ≤ 59 := by
    unfold Date at *
    omega
  simp [valid, of, *]

theorem time_of (t : Date) : (of t).time = t := by
  have hday : dayNumber (of t).year (of t).month (of t).day = t / 86400000 + 719468 :=
    dayNumber_civilOfDays _
  unfold time
  rw [hday, Nat.add_sub_cancel]
  simp only [of]
  unfold Date at *
  omega

end DateParts

/-- `Date.parse` of a text of the form that `toISOString` writes. `none` stands for `NaN`, for the
other forms and for the dates before 1970. -/
def parseDate (text : String) : Option Date :=
  ((readParts text).filter DateParts.valid).map DateParts.time

/-- The last point in time that a `Date` can hold. -/
def maxTime : Nat := 8640000000000000

/-- The text with these parts. -/
def DateParts.text (p : DateParts) : String :=
  yearText p.year ++ "-" ++ padNat 2 p.month ++ "-" ++ padNat 2 p.day ++ "T" ++
    padNat 2 p.hour ++ ":" ++ padNat 2 p.minute ++ ":" ++ padNat 2 p.second ++ "." ++
    padNat 3 p.milli ++ "Z"

/-- The parts fit into their places. -/
structure DateParts.Fit (p : DateParts) : Prop where
  year : p.year < 1000000
  month : p.month < 100
  day : p.day < 100
  hour : p.hour < 100
  minute : p.minute < 100
  second : p.second < 100
  milli : p.milli < 1000

theorem readParts_text {p : DateParts} (h : p.Fit) : readParts p.text = some p := by
  have hread : ∀ n, n < 100 → ∀ rest,
      readDigits 2 ((padNat 2 n).toList ++ rest) = some (n, rest) :=
    fun n hn => readDigits_padNat (by omega) hn
  have hmilli : ∀ rest, readDigits 3 ((padNat 3 p.milli).toList ++ rest) = some (p.milli, rest) :=
    readDigits_padNat (by omega) h.milli
  have hdash : "-".toList = ['-'] := rfl
  have hcolon : ":".toList = [':'] := rfl
  have htime : "T".toList = ['T'] := rfl
  have hdot : ".".toList = ['.'] := rfl
  have hzone : "Z".toList = ['Z'] := rfl
  simp only [readParts, DateParts.text, String.toList_append, List.append_assoc, hdash, hcolon,
    htime, hdot, hzone, List.cons_append, List.nil_append, readYear_yearText h.year,
    Option.bind_eq_bind, Option.bind_some, skipChar_self, hread _ h.month, hread _ h.day,
    hread _ h.hour, hread _ h.minute, hread _ h.second, hmilli, ↓reduceIte]

theorem DateParts.fit_of {t : Date} (h : t ≤ maxTime) : (DateParts.of t).Fit := by
  obtain ⟨-, hyear, -, hmonth, -, hday⟩ := civilOfDays_bounds (t / 86400000)
  unfold Date maxTime at *
  constructor <;> simp only [DateParts.of] <;> omega

/-- A date that has been written is read back. -/
theorem parseDate_toISOString {t : Date} (h : t ≤ maxTime) :
    parseDate (toISOString t) = some t := by
  have htext : toISOString t = (DateParts.of t).text := rfl
  unfold parseDate
  rw [htext, readParts_text (DateParts.fit_of h), Option.filter_some,
    if_pos (DateParts.valid_of t), Option.map_some, DateParts.time_of]

end TroofAI.Hub
