import Mathlib.Tactic.IntervalCases
import Rampart.Proofs.Json.Decode
import Rampart.Time.Calendar
import Rampart.Time.Wire

/-!
# Dates and time stamps are read back

A cycle of 400 years, counted from March, has 146097 days. The year of a day in the cycle is found
by a quotient that corrects for the leap days before it; that it is the right one is said here by
the days with which the years begin.

* `Calendar.yearStart`, `cycleYear`: the first day of a year of the cycle, and the year of a day.
* `Calendar.cycleYear_spec`: a day lies in its year, and is the last of 366 only in front of a leap
  year.
* **`Calendar.dayNumber_dateOfDay`**: the date of a day has its number.
* **`Calendar.isDate_dateOfDay`**: it is a date that exists, within the years of time stamps.
* `Instant.IsProper`: the stamps that there are, to the nanosecond: a day within the years of time
  stamps, a second of it and the nanoseconds of the second, where the last second of a minute may be
  a leap second of twice the length.
* `Instant.digits?_padded`, `year?_yearText`, `fraction?_fractionText`: the parts of a stamp are
  read back, whatever follows that does not go on with them.
* `Instant.ofLocal_parts`: the parts make up the stamp.
* **`Instant.parse?_toText`**: a stamp is read back.
-/

namespace Rampart.Calendar

/-! ## Years of a cycle -/

/-- The first day of a year of the cycle. -/
def yearStart (year : Nat) : Nat :=
  365 * year + year / 4 - year / 100 + year / 400

/-- The year of a day of the cycle. -/
def cycleYear (day : Nat) : Nat :=
  (day - day / 1460 + day / 36524 - day / 146096) / 365

/-- The day with which a year ends is in front of the next one's first. -/
theorem exists_year {day bound : Nat} (h : day < yearStart bound) :
    ∃ year < bound, yearStart year ≤ day ∧ day < yearStart (year + 1) := by
  induction bound with
  | zero => exact absurd h (Nat.not_lt_zero day)
  | succ bound ih =>
    by_cases hday : day < yearStart bound
    · obtain ⟨year, hyear, hbetween⟩ := ih hday
      exact ⟨year, Nat.lt_succ_of_lt hyear, hbetween⟩
    · exact ⟨bound, Nat.lt_succ_self bound, Nat.le_of_not_lt hday, h⟩

theorem cycleYear_mono {a b : Nat} (hab : a ≤ b) (hb : b < 146097) : cycleYear a ≤ cycleYear b := by
  induction b, hab using Nat.le_induction with
  | base => exact Nat.le_refl _
  | succ b hab ih =>
    refine (ih (by omega)).trans (Nat.div_le_div_right ?_)
    omega

/-- At both ends of a year, its days are of that year. -/
theorem cycleYear_ends : ∀ year < 400, cycleYear (yearStart year) = year ∧
    cycleYear (yearStart (year + 1) - 1) = year := by
  decide +kernel

theorem cycleYear_eq {day year : Nat} (hyear : year < 400) (hfrom : yearStart year ≤ day)
    (hto : day < yearStart (year + 1)) : cycleYear day = year := by
  have hlast : yearStart (year + 1) ≤ 146097 := by
    have hmono : yearStart (year + 1) ≤ yearStart 400 := by
      unfold yearStart
      omega
    exact hmono
  obtain ⟨hfirst, hend⟩ := cycleYear_ends year hyear
  apply Nat.le_antisymm
  · have hle := cycleYear_mono (show day ≤ yearStart (year + 1) - 1 by omega) (by omega)
    omega
  · have hle := cycleYear_mono hfrom (by omega)
    omega

theorem cycleYear_spec {day : Nat} (h : day < 146097) :
    cycleYear day < 400 ∧ yearStart (cycleYear day) ≤ day ∧
      day < yearStart (cycleYear day + 1) := by
  have hbound : day < yearStart 400 := h
  obtain ⟨year, hyear, hfrom, hto⟩ := exists_year hbound
  rw [cycleYear_eq hyear hfrom hto]
  exact ⟨hyear, hfrom, hto⟩

/-! ## Days of a year -/

/-- The month of a day of the year, counted from March. -/
def monthFromMarch (dayOfYear : Nat) : Nat :=
  (5 * dayOfYear + 2) / 153

/-- Where a day stands in the calendar. -/
structure Position where
  cycle : Int
  /-- The year of the cycle, counted from March. -/
  year : Nat
  dayOfYear : Nat
  year_lt : year < 400
  dayOfYear_lt : dayOfYear < yearStart (year + 1) - yearStart year

namespace Position

variable (p : Position)

/-- The number of the day. -/
def number : Int :=
  p.cycle * 146097 + yearStart p.year + p.dayOfYear - 719468

/-- The month, counted from March. -/
def month : Nat :=
  monthFromMarch p.dayOfYear

/-- The date of the day. -/
def date : Int × Nat × Nat :=
  (p.cycle * 400 + p.year + (if p.month < 10 then 0 else 1),
    if p.month < 10 then p.month + 3 else p.month - 9,
    p.dayOfYear - (153 * p.month + 2) / 5 + 1)

theorem month_le : p.month ≤ 11 ∧ (153 * p.month + 2) / 5 ≤ p.dayOfYear := by
  have hlt := p.dayOfYear_lt
  have hyear := p.year_lt
  unfold yearStart at hlt
  unfold month monthFromMarch
  omega

/-- Every day has its position. -/
theorem exists_position (number : Int) : ∃ p : Position, p.number = number := by
  obtain ⟨day, hday⟩ := Int.eq_ofNat_of_zero_le
    (Int.emod_nonneg (number + 719468) (show (146097 : Int) ≠ 0 by decide))
  have hlt : day < 146097 := by omega
  obtain ⟨hyear, hfrom, hto⟩ := cycleYear_spec hlt
  refine ⟨⟨(number + 719468) / 146097, cycleYear day, day - yearStart (cycleYear day), hyear,
    by omega⟩, ?_⟩
  unfold Position.number
  dsimp only
  omega

/-- What `dateOfDay` makes of a day's position, step by step. -/
theorem dateOfDay_number : dateOfDay p.number = p.date := by
  have hyear := p.year_lt
  have hdays := p.dayOfYear_lt
  obtain ⟨hmonth, hday⟩ := p.month_le
  obtain ⟨day, hsum⟩ : ∃ day, day = yearStart p.year + p.dayOfYear := ⟨_, rfl⟩
  have hlt : day < 146097 := by
    unfold yearStart at hsum hdays
    omega
  have hcycle : (p.number + 719468) / 146097 = p.cycle := by
    unfold number
    omega
  have hdayOfCycle : (p.number + 719468) % 146097 = (day : Int) := by
    unfold number
    omega
  have hyearOf : ((day : Int) - day / 1460 + day / 36524 - day / 146096) / 365 = p.year := by
    have heq : cycleYear day = p.year := cycleYear_eq hyear (by omega) (by omega)
    unfold cycleYear at heq
    omega
  have hdayOf : (day : Int) - (365 * p.year + p.year / 4 - p.year / 100) = p.dayOfYear := by
    unfold yearStart at hsum
    omega
  have hmonthOf : (5 * (p.dayOfYear : Int) + 2) / 153 = p.month := by
    unfold month monthFromMarch
    omega
  have hlast : (p.dayOfYear : Int) - (153 * p.month + 2) / 5 + 1 =
      (p.dayOfYear - (153 * p.month + 2) / 5 + 1 : Nat) := by
    omega
  unfold dateOfDay date
  simp only [hcycle, hdayOfCycle, hyearOf, hdayOf, hmonthOf, hlast, Int.toNat_natCast]
  have hmonthDate : (if (p.month : Int) < 10 then (p.month : Int) + 3 else p.month - 9) =
      (if p.month < 10 then p.month + 3 else p.month - 9 : Nat) := by
    split <;> split <;> omega
  rw [hmonthDate, Int.toNat_natCast]
  simp only [Prod.mk.injEq, and_true]
  split <;> split <;> omega

theorem dayNumber_date : dayNumber p.date.1 p.date.2.1 p.date.2.2 = p.number := by
  have hyear := p.year_lt
  obtain ⟨hmonth, hday⟩ := p.month_le
  have hstart : (yearStart p.year : Int) = p.year * 365 + p.year / 4 - p.year / 100 := by
    unfold yearStart
    omega
  unfold dayNumber date number
  rw [hstart]
  dsimp only
  by_cases hlate : p.month < 10
  · rw [if_pos hlate, if_pos hlate]
    have hmarch : ¬ p.month + 3 ≤ 2 := by omega
    rw [if_neg hmarch]
    omega
  · rw [if_neg hlate, if_neg hlate]
    have hmarch : p.month - 9 ≤ 2 := by omega
    rw [if_pos hmarch]
    omega

end Position

/-- **The date of a day has its number.** -/
theorem dayNumber_dateOfDay (number : Int) :
    dayNumber (dateOfDay number).1 (dateOfDay number).2.1 (dateOfDay number).2.2 = number := by
  obtain ⟨p, rfl⟩ := Position.exists_position number
  rw [p.dateOfDay_number, p.dayNumber_date]

/-- A year has 366 days in front of the end of a February of 29. -/
theorem Position.length_year (p : Position) :
    yearStart (p.year + 1) - yearStart p.year =
      if isLeapYear (p.cycle * 400 + p.year + 1) then 366 else 365 := by
  have hyear := p.year_lt
  have hleap : isLeapYear (p.cycle * 400 + p.year + 1) = true ↔
      (p.year + 1) % 4 = 0 ∧ ((p.year + 1) % 100 ≠ 0 ∨ (p.year + 1) % 400 = 0) := by
    simp only [isLeapYear, Bool.and_eq_true, Bool.or_eq_true, decide_eq_true_eq, bne_iff_ne]
    omega
  unfold yearStart
  split
  case isTrue h =>
    rw [hleap] at h
    omega
  case isFalse h =>
    rw [hleap] at h
    omega

theorem Position.day_le (p : Position) : p.date.2.2 ≤ daysInMonth p.date.1 p.date.2.1 := by
  have hdays := p.dayOfYear_lt
  rw [p.length_year] at hdays
  obtain ⟨hmonth, hday⟩ := p.month_le
  have hend : 5 * p.dayOfYear + 2 < 153 * (p.month + 1) := by
    unfold Position.month monthFromMarch
    omega
  unfold Position.date daysInMonth
  dsimp only
  generalize p.month = month at *
  by_cases hfebruary : month = 11
  · subst hfebruary
    rw [if_neg (show ¬11 < 10 by decide), if_neg (show ¬11 < 10 by decide), if_pos rfl]
    split at hdays
    case isTrue h =>
      rw [if_pos h]
      omega
    case isFalse h =>
      rw [if_neg h]
      omega
  · interval_cases month
    all_goals
      simp only [Nat.reduceLT, Nat.reduceAdd, Nat.reduceSub, Nat.reduceEqDiff, if_true, if_false,
        decide_true, decide_false, Bool.or_false, Bool.or_true, Bool.false_eq_true]
      omega

/-- **The date of a day exists** in the year that it is of. -/
theorem isDate_dateOfDay {number : Int} (hfirst : firstYear ≤ (dateOfDay number).1)
    (hlast : (dateOfDay number).1 ≤ lastYear) :
    isDate (dateOfDay number).1 (dateOfDay number).2.1 (dateOfDay number).2.2 = true := by
  obtain ⟨p, rfl⟩ := Position.exists_position number
  rw [p.dateOfDay_number] at *
  have hmonth : 1 ≤ p.date.2.1 ∧ p.date.2.1 ≤ 12 := by
    have hle := p.month_le.1
    unfold Position.date
    dsimp only
    split <;> omega
  have hday : 1 ≤ p.date.2.2 := Nat.succ_pos _
  simp only [isDate, Bool.and_eq_true, decide_eq_true_eq]
  exact ⟨⟨⟨⟨⟨hfirst, hlast⟩, hmonth.1⟩, hmonth.2⟩, hday⟩, p.day_le⟩

theorem le_of_isDate {year : Int} {month day : Nat} (h : isDate year month day = true) :
    month ≤ 12 ∧ day ≤ 31 := by
  simp only [isDate, Bool.and_eq_true, decide_eq_true_eq] at h
  obtain ⟨⟨⟨-, hmonth⟩, -⟩, hday⟩ := h
  refine ⟨hmonth, hday.trans ?_⟩
  unfold daysInMonth
  repeat' split
  all_goals decide

end Rampart.Calendar

namespace Rampart.Instant

open Text (isBlank trimLeft)
open Text.Decimal (padded)

/-- A stamp that there is. -/
structure IsProper (i : Instant) : Prop where
  first : Calendar.firstYear ≤ (Calendar.dateOfDay i.day).1
  last : (Calendar.dateOfDay i.day).1 ≤ Calendar.lastYear
  second : i.second < 86400
  nanos : i.nanos < 2000000000
  leap : 1000000000 ≤ i.nanos → i.second % 60 = 59

instance (i : Instant) : Decidable i.IsProper :=
  decidable_of_iff (Calendar.firstYear ≤ (Calendar.dateOfDay i.day).1 ∧
      (Calendar.dateOfDay i.day).1 ≤ Calendar.lastYear ∧ i.second < 86400 ∧
      i.nanos < 2000000000 ∧ (1000000000 ≤ i.nanos → i.second % 60 = 59))
    ⟨fun ⟨first, last, second, nanos, leap⟩ => ⟨first, last, second, nanos, leap⟩,
      fun h => ⟨h.first, h.last, h.second, h.nanos, h.leap⟩⟩

/-! ## Parts of a stamp -/

/-- What follows a number does not go on with it. -/
def EndsDigits (rest : List Char) : Prop :=
  ∀ c ∈ rest.head?, c.isDigit = false

theorem endsDigits_cons {c : Char} (h : c.isDigit = false) (rest : List Char) :
    EndsDigits (c :: rest) := by
  intro d hd
  rwa [← Option.some.inj hd]

theorem not_isBlank_of_isDigit {c : Char} (h : c.isDigit = true) : isBlank c = false := by
  rw [Text.isDigit_iff] at h
  simp only [isBlank, Bool.or_eq_false_iff, Bool.and_eq_false_iff, decide_eq_false_iff_not,
    beq_eq_false_iff_ne]
  omega

theorem trimLeft_digits {cs : List Char} (hne : cs ≠ []) (h : ∀ c ∈ cs, c.isDigit = true)
    (rest : List Char) : trimLeft (cs ++ rest) = cs ++ rest := by
  obtain ⟨c, cs, rfl⟩ := List.exists_cons_of_ne_nil hne
  have hblank := not_isBlank_of_isDigit (h c List.mem_cons_self)
  exact List.dropWhile_cons_of_neg (by rw [hblank]; exact Bool.false_ne_true)

theorem takeWhile_of_endsDigits {rest : List Char} (h : EndsDigits rest) (count : Nat) :
    (rest.take count).takeWhile Char.isDigit = [] := by
  cases rest with
  | nil => simp
  | cons c rest =>
    cases count with
    | zero => rfl
    | succ count => simp [h c rfl]

/-- Digits are read back where no more can be taken. -/
theorem digits?_padded {width bound n : Nat} {rest : List Char}
    (hlength : (padded width n).toList.length ≤ bound)
    (hend : (padded width n).toList.length = bound ∨ EndsDigits rest) :
    digits? bound ((padded width n).toList ++ rest) = some (n, rest) := by
  have hall : ∀ c ∈ (padded width n).toList, c.isDigit = true :=
    fun c hc => Text.Decimal.isDigit_of_mem_padded hc
  have htake : (((padded width n).toList ++ rest).take bound).takeWhile Char.isDigit =
      (padded width n).toList := by
    rw [List.take_append, List.take_of_length_le hlength, List.takeWhile_append_of_pos hall]
    rcases hend with hfull | hend
    · rw [hfull, Nat.sub_self, List.take_zero, List.takeWhile_nil, List.append_nil]
    · rw [takeWhile_of_endsDigits hend, List.append_nil]
  unfold digits?
  dsimp only
  rw [htake, Text.Decimal.nat?_padded]
  simp only [List.drop_left]

theorem trimLeft_padded (width n : Nat) (rest : List Char) :
    trimLeft ((padded width n).toList ++ rest) = (padded width n).toList ++ rest :=
  trimLeft_digits (Text.Decimal.padded_ne_nil width n)
    (fun _ hc => Text.Decimal.isDigit_of_mem_padded hc) rest

theorem pair?_padded {n : Nat} (h : n < 100) (rest : List Char) :
    pair? ((padded 2 n).toList ++ rest) = some (n, rest) := by
  have hlength := Text.Decimal.length_padded (by decide : 0 < 2) h
  rw [pair?, trimLeft_padded, digits?_padded hlength.le (.inl hlength)]

theorem afterMark?_cons {mark : Char} (h : isBlank mark = false) (rest : List Char) :
    afterMark? mark (mark :: rest) = some rest := by
  have htrim : trimLeft (mark :: rest) = mark :: rest :=
    List.dropWhile_cons_of_neg (by rw [h]; exact Bool.false_ne_true)
  rw [afterMark?, htrim]
  exact if_pos rfl

theorem exists_padded_eq (width n : Nat) :
    ∃ c cs, (padded width n).toList = c :: cs ∧ c.isDigit = true := by
  obtain ⟨c, cs, hcs⟩ := List.exists_cons_of_ne_nil (Text.Decimal.padded_ne_nil width n)
  exact ⟨c, cs, hcs, Text.Decimal.isDigit_of_mem_padded (hcs ▸ List.mem_cons_self)⟩

/-- A year without a sign has up to four digits. -/
theorem year?_padded (n : Nat) (rest : List Char) :
    year? ((padded 4 n).toList ++ rest) =
      (digits? 4 ((padded 4 n).toList ++ rest)).map fun (n, rest) => ((n : Int), rest) := by
  obtain ⟨c, cs, hcs, hc⟩ := exists_padded_eq 4 n
  rw [year?, trimLeft_padded, hcs]
  split
  · next heq =>
    rw [(List.cons.inj heq).1] at hc
    cases hc
  · next heq =>
    rw [(List.cons.inj heq).1] at hc
    cases hc
  · rfl

theorem year?_minus (cs : List Char) :
    year? ('-' :: cs) = (digits? cs.length cs).map fun (n, rest) => (-(n : Int), rest) := by
  have htrim : trimLeft ('-' :: cs) = '-' :: cs := rfl
  rw [year?, htrim]
  rfl

theorem year?_plus (cs : List Char) :
    year? ('+' :: cs) = (digits? cs.length cs).map fun (n, rest) => ((n : Int), rest) := by
  have htrim : trimLeft ('+' :: cs) = '+' :: cs := rfl
  rw [year?, htrim]
  rfl

theorem year?_yearText (year : Int) {rest : List Char} (h : EndsDigits rest) :
    year? ((yearText year).toList ++ rest) = some (year, rest) := by
  have hsigned (n : Nat) : digits? ((padded 4 n).toList ++ rest).length
      ((padded 4 n).toList ++ rest) = some (n, rest) :=
    digits?_padded (by rw [List.length_append]; omega) (.inr h)
  unfold yearText
  split
  case isTrue hshort =>
    rw [Bool.and_eq_true, decide_eq_true_eq, decide_eq_true_eq] at hshort
    have hlength := Text.Decimal.length_padded (by decide : 0 < 4)
      (show year.toNat < 10 ^ 4 by omega)
    rw [year?_padded, digits?_padded hlength.le (.inl hlength)]
    simp only [Option.map_some, Int.toNat_of_nonneg hshort.1]
  case isFalse hlong =>
    rw [String.toList_append, List.append_assoc]
    split
    case isTrue hnegative =>
      have hvalue : -(year.natAbs : Int) = year := by omega
      have hsign : "-".toList = ['-'] := rfl
      rw [hsign, List.singleton_append, year?_minus, hsigned, Option.map_some]
      simp only [hvalue]
    case isFalse hpositive =>
      have hvalue : (year.natAbs : Int) = year := by omega
      have hsign : "+".toList = ['+'] := rfl
      rw [hsign, List.singleton_append, year?_plus, hsigned, Option.map_some]
      simp only [hvalue]

/-- A fraction is read back in as many places as it was written. -/
theorem fraction?_padded {width n : Nat} (hpos : 0 < width) (hwidth : width ≤ 9)
    (hn : n < 10 ^ width) {rest : List Char} (h : EndsDigits rest) :
    fraction? ('.' :: ((padded width n).toList ++ rest)) = some (n * 10 ^ (9 - width), rest) := by
  have hlength := Text.Decimal.length_padded hpos hn
  have hdrop : rest.dropWhile Char.isDigit = rest := by
    cases rest with
    | nil => rfl
    | cons c rest => exact List.dropWhile_cons_of_neg (by rw [h c rfl]; exact Bool.false_ne_true)
  rw [fraction?, digits?_padded (by omega) (.inr h)]
  simp only [List.length_append, hlength, Nat.add_sub_cancel_right, hdrop]
  rfl

theorem fraction?_fractionText {nanos : Nat} (hnanos : nanos < 1000000000) {rest : List Char}
    (h : EndsDigits rest) (hpoint : '.' ∉ rest.head?) :
    fraction? ((fractionText nanos).toList ++ rest) = some (nanos, rest) := by
  unfold fractionText
  split
  case isTrue hzero =>
    rw [hzero]
    unfold fraction?
    split
    · next heq =>
      rw [String.toList_empty, List.nil_append] at heq
      rw [heq] at hpoint
      exact absurd rfl hpoint
    · rfl
  split
  case isTrue hmilli =>
    have hread := fraction?_padded (by decide : 0 < 3) (by decide)
      (show nanos / 1000000 < 10 ^ 3 by omega) h
    rw [show nanos / 1000000 * 10 ^ (9 - 3) = nanos by omega] at hread
    rw [String.toList_append]
    exact hread
  split
  case isTrue hmicro =>
    have hread := fraction?_padded (by decide : 0 < 6) (by decide)
      (show nanos / 1000 < 10 ^ 6 by omega) h
    rw [show nanos / 1000 * 10 ^ (9 - 6) = nanos by omega] at hread
    rw [String.toList_append]
    exact hread
  case isFalse =>
    have hread := fraction?_padded (by decide : 0 < 9) (by decide) (show nanos < 10 ^ 9 by omega) h
    rw [show nanos * 10 ^ (9 - 9) = nanos by omega] at hread
    rw [String.toList_append]
    exact hread

/-! ## Whole stamps -/

/-- The second of the minute that is written: the one after the last for a leap second. -/
def writtenSecond (i : Instant) : Nat :=
  i.second % 60 + if i.nanos ≥ 1000000000 then 1 else 0

/-- The nanoseconds that are written. -/
def writtenNanos (i : Instant) : Nat :=
  if i.nanos ≥ 1000000000 then i.nanos - 1000000000 else i.nanos

theorem writtenSecond_eq_iff {i : Instant} (h : i.IsProper) :
    i.writtenSecond = 60 ↔ i.nanos ≥ 1000000000 := by
  have hleap := h.leap
  unfold writtenSecond
  split <;> omega

theorem writtenNanos_lt {i : Instant} (h : i.IsProper) : i.writtenNanos < 1000000000 := by
  have hnanos := h.nanos
  unfold writtenNanos
  split <;> omega

/-- **The parts of a stamp make it up.** -/
theorem ofLocal_parts {i : Instant} (h : i.IsProper) :
    ofLocal (Calendar.dateOfDay i.day).1 (Calendar.dateOfDay i.day).2.1
      (Calendar.dateOfDay i.day).2.2 (i.second / 3600) (i.second / 60 % 60) i.writtenSecond
      i.writtenNanos 0 = some i := by
  have hsecond := h.second
  have hdate := Calendar.isDate_dateOfDay h.first h.last
  have hday := Calendar.dayNumber_dateOfDay i.day
  have hwritten : i.writtenSecond ≤ 60 := by
    unfold writtenSecond
    have hmod := Nat.mod_lt i.second (by decide : 0 < 60)
    split <;> omega
  have hiff := writtenSecond_eq_iff h
  have hparts : i.second / 3600 * 3600 + i.second / 60 % 60 * 60 +
      (if i.writtenSecond = 60 then 59 else i.writtenSecond) = i.second := by
    by_cases hlate : i.nanos ≥ 1000000000
    · have hleap := h.leap hlate
      rw [if_pos (hiff.mpr hlate)]
      omega
    · rw [if_neg (hiff.not.mpr hlate), writtenSecond, if_neg hlate]
      omega
  have hnanos : (if i.writtenSecond = 60 then i.writtenNanos + 1000000000 else i.writtenNanos) =
      i.nanos := by
    rw [if_congr hiff rfl rfl]
    unfold writtenNanos
    split <;> omega
  have hguard : (!Calendar.isDate (Calendar.dateOfDay i.day).1 (Calendar.dateOfDay i.day).2.1
      (Calendar.dateOfDay i.day).2.2 || decide (i.second / 3600 > 23) ||
      decide (i.second / 60 % 60 > 59) || decide (i.writtenSecond > 60)) = false := by
    rw [hdate]
    simp only [Bool.not_true, Bool.false_or, Bool.or_eq_false_iff, decide_eq_false_iff_not]
    omega
  have htotal : i.day * 86400 + (i.second : Int) - 0 = i.day * 86400 + i.second := by omega
  have hquotient : (i.day * 86400 + (i.second : Int)) / 86400 = i.day := by omega
  have hremainder : (i.day * 86400 + (i.second : Int)) % 86400 = i.second := by omega
  have hyears : (decide ((Calendar.dateOfDay i.day).1 < Calendar.firstYear) ||
      decide ((Calendar.dateOfDay i.day).1 > Calendar.lastYear)) = false := by
    rw [decide_eq_false (Int.not_lt.mpr h.first), decide_eq_false (Int.not_lt.mpr h.last)]
    rfl
  unfold ofLocal
  simp only [hguard, hparts, hnanos, hday, htotal, hquotient, hremainder, hyears]
  rfl

/-- The characters of a stamp, part by part. -/
theorem toList_toText (i : Instant) :
    i.toText.toList =
      (yearText (Calendar.dateOfDay i.day).1).toList ++
        '-' :: ((padded 2 (Calendar.dateOfDay i.day).2.1).toList ++
        '-' :: ((padded 2 (Calendar.dateOfDay i.day).2.2).toList ++
        'T' :: ((padded 2 (i.second / 3600)).toList ++
        ':' :: ((padded 2 (i.second / 60 % 60)).toList ++
        ':' :: ((padded 2 i.writtenSecond).toList ++
        ((fractionText i.writtenNanos).toList ++ ['Z'])))))) := by
  have hmarks : "-".toList = ['-'] ∧ "T".toList = ['T'] ∧ ":".toList = [':'] ∧
      "Z".toList = ['Z'] := ⟨rfl, rfl, rfl, rfl⟩
  unfold toText localText writtenSecond writtenNanos
  simp only [String.toList_append, hmarks, List.append_assoc, List.cons_append,
    List.nil_append]

theorem bind_eq_some {α β : Type} {x : Option α} {f : α → Option β} {a : α} {b : β}
    (hx : x = some a) (hf : f a = some b) : (x >>= f) = some b :=
  Option.bind_eq_some_iff.mpr ⟨a, hx, hf⟩

/-- **A stamp is read back.** -/
theorem parse?_toText {i : Instant} (h : i.IsProper) : parse? i.toText = some i := by
  have hsecond := h.second
  have hwritten : i.writtenSecond < 100 := by
    unfold writtenSecond
    have hmod := Nat.mod_lt i.second (by decide : 0 < 60)
    split <;> omega
  have hdate := Calendar.isDate_dateOfDay h.first h.last
  have hmonth : (Calendar.dateOfDay i.day).2.1 < 100 := by
    have hle := (Calendar.le_of_isDate hdate).1
    omega
  have hday : (Calendar.dateOfDay i.day).2.2 < 100 := by
    have hle := (Calendar.le_of_isDate hdate).2
    omega
  have hhyphen : isBlank '-' = false := rfl
  have hcolon : isBlank ':' = false := rfl
  have hend : EndsDigits ['Z'] := endsDigits_cons rfl []
  unfold parse?
  rw [toList_toText]
  refine bind_eq_some (year?_yearText _ (endsDigits_cons rfl _)) ?_
  refine bind_eq_some (afterMark?_cons hhyphen _) (bind_eq_some (pair?_padded hmonth _) ?_)
  refine bind_eq_some (afterMark?_cons hhyphen _) (bind_eq_some (pair?_padded hday _) ?_)
  refine bind_eq_some rfl (bind_eq_some (pair?_padded (by omega) _) ?_)
  refine bind_eq_some (afterMark?_cons hcolon _) (bind_eq_some (pair?_padded (by omega) _) ?_)
  refine bind_eq_some (afterMark?_cons hcolon _) (bind_eq_some (pair?_padded hwritten _) ?_)
  refine bind_eq_some (fraction?_fractionText (writtenNanos_lt h) hend (by decide)) ?_
  refine bind_eq_some (a := (0, [])) rfl ?_
  exact ofLocal_parts h

/-- A stamp is given back by its form. -/
theorem givesBack {i : Instant} (h : i.IsProper) : Json.GivesBack Instant.decode (encode i) i where
  isExact := rfl
  decode_eq := by
    have hstring : Json.string (encode i) = .ok i.toText := rfl
    rw [Instant.decode, hstring]
    simp only [bind, Except.bind, parse?_toText h]

end Rampart.Instant
