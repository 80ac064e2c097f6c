/-
Runwatch.Proofs.Time.Calendar — dates and day numbers.

`days` numbers the dates of the calendar in their order, and `civil` is its
inverse. Both count years from March: `dayOfMarchYear` is the number of days
up to a year, and inside a year the months begin at fixed days, because the
leap day comes last.

  §1 Dates — valid dates and their order.
  §2 Years — the days of an era of 400 years, cut into centuries, leap
             periods and years (`exists_eraSplit`).
  §3 Months — where a month begins, and the date of a day of a year.
  §4 Numbering — `days_civil`, `days_lt_days` and what follows from them.
-/
import Mathlib.Tactic.IntervalCases
import Runwatch.Time.Instant

namespace Runwatch.Time

/-! ## §1 Dates -/

/-- A date that is on the calendar. -/
structure Date.IsValid (d : Date) : Prop where
  month_pos : 1 ≤ d.month
  month_le : d.month ≤ 12
  day_pos : 1 ≤ d.day
  day_le : d.day ≤ monthLength d.year d.month

/-- Earlier on the calendar. -/
def Date.Before (a b : Date) : Prop :=
  a.year < b.year ∨
    a.year = b.year ∧ (a.month < b.month ∨ a.month = b.month ∧ a.day < b.day)

theorem Date.before_or_eq_or_after (a b : Date) : a.Before b ∨ a = b ∨ b.Before a := by
  obtain ⟨year, month, day⟩ := a
  obtain ⟨year', month', day'⟩ := b
  simp only [Before, mk.injEq]
  omega

theorem date?_of_isValid {d : Date} (h : d.IsValid) (h₁ : leastYear ≤ d.year)
    (h₂ : d.year ≤ greatestYear) : date? d.year d.month d.day = some d := by
  rw [date?, if_pos]
  simp [h.month_pos, h.month_le, h.day_pos, h.day_le, h₁, h₂]

theorem isLeap_iff {year : Int} :
    isLeap year = true ↔ year % 4 = 0 ∧ (year % 100 ≠ 0 ∨ year % 400 = 0) := by
  simp [isLeap]

/-! ## §2 Years -/

/-- The days from the first of March of year 0 to that of year `y`. -/
def dayOfMarchYear (y : Int) : Int := 365 * y + y / 4 - y / 100 + y / 400

/-- The day of an era on which its year `y` begins, if `y` is below 400. -/
theorem dayOfMarchYear_era (era : Int) {y : Int} (h : 0 ≤ y) (h' : y < 400) :
    dayOfMarchYear (y + era * 400) = era * 146097 + (y * 365 + y / 4 - y / 100) := by
  rw [dayOfMarchYear]
  omega

theorem dayOfMarchYear_mono {x y : Int} (h : x ≤ y) : dayOfMarchYear x ≤ dayOfMarchYear y := by
  rw [dayOfMarchYear, dayOfMarchYear]
  omega

/-- A day of an era: its century, leap period, year and day, each counted
inside the one before. The fourth century and the fourth year are longer. -/
structure EraSplit (dayOfEra century period year day : Int) : Prop where
  sum : dayOfEra = 36524 * century + 1461 * period + 365 * year + day
  century_nonneg : 0 ≤ century
  century_le : century ≤ 3
  period_nonneg : 0 ≤ period
  period_le : period ≤ 24
  year_nonneg : 0 ≤ year
  year_le : year ≤ 3
  day_nonneg : 0 ≤ day
  day_le : day ≤ 365
  leap : day = 365 → year = 3 ∧ (period ≠ 24 ∨ century = 3)

theorem exists_eraSplit (dayOfEra : Int) (h : 0 ≤ dayOfEra) (h' : dayOfEra < 146097) :
    ∃ century period year day, EraSplit dayOfEra century period year day := by
  obtain ⟨century, hcentury⟩ : ∃ c, c = min (dayOfEra / 36524) 3 := ⟨_, rfl⟩
  obtain ⟨inCentury, hin⟩ : ∃ r, r = dayOfEra - 36524 * century := ⟨_, rfl⟩
  obtain ⟨period, hperiod⟩ : ∃ p, p = inCentury / 1461 := ⟨_, rfl⟩
  obtain ⟨inPeriod, hin'⟩ : ∃ r, r = inCentury - 1461 * period := ⟨_, rfl⟩
  obtain ⟨year, hyear⟩ : ∃ y, y = min (inPeriod / 365) 3 := ⟨_, rfl⟩
  exact ⟨century, period, year, inPeriod - 365 * year, by omega, by omega, by omega, by omega,
    by omega, by omega, by omega, by omega, by omega, by omega⟩

namespace EraSplit

variable {dayOfEra century period year day : Int}

/-- The year of the era, as `civil` computes it. -/
theorem yearOfEra_eq (h : EraSplit dayOfEra century period year day) :
    (dayOfEra - dayOfEra / 1460 + dayOfEra / 36524 - dayOfEra / 146096) / 365 =
      100 * century + 4 * period + year := by
  obtain ⟨hsum, _, _, _, _, _, _, _, _, hleap⟩ := h
  have hcentury : dayOfEra / 36524 - dayOfEra / 146096 = century := by
    -- only the last day of an era lies beyond four short centuries
    by_cases hlast : dayOfEra = 146096
    · rw [hlast]
      omega
    · have hno : dayOfEra / 146096 = 0 := by omega
      omega
  have hperiod : dayOfEra / 1460 = 25 * century + period
      + (24 * century + period + 365 * year + day) / 1460 := by omega
  omega

theorem dayOfYear_eq (h : EraSplit dayOfEra century period year day) :
    dayOfEra - (365 * (100 * century + 4 * period + year)
      + (100 * century + 4 * period + year) / 4
      - (100 * century + 4 * period + year) / 100) = day := by
  obtain ⟨hsum, _, _, _, _, _, _, _, _, hleap⟩ := h
  omega

end EraSplit

/-! ## §3 Months -/

/-- The day of a March year on which its month `m` begins; March is month
zero. -/
def monthStart (m : Int) : Int := (153 * m + 2) / 5

/-- The month of the calendar that is month `m` of a March year. -/
def monthOf (m : Int) : Int := if m < 10 then m + 3 else m - 9

/-- The March year of a date. -/
def Date.marchYear (d : Date) : Int := if d.month ≤ 2 then d.year - 1 else d.year

/-- The month of a date in its March year. -/
def Date.marchMonth (d : Date) : Int := ((d.month + 9) % 12 : Nat)

theorem days_eq (d : Date) :
    days d = dayOfMarchYear d.marchYear + monthStart d.marchMonth + d.day - 1 - 719468 := by
  have hera : dayOfMarchYear d.marchYear = d.marchYear / 400 * 146097
      + (d.marchYear % 400 * 365 + d.marchYear % 400 / 4 - d.marchYear % 400 / 100) := by
    rw [← dayOfMarchYear_era _ (by omega) (by omega)]
    congr 1
    omega
  rw [hera]
  change d.marchYear / 400 * 146097 + (d.marchYear % 400 * 365 + d.marchYear % 400 / 4
    - d.marchYear % 400 / 100 + (monthStart d.marchMonth + d.day - 1)) - 719468 = _
  omega

/-- A date by its March year, month and day. -/
def marchDate (y m day : Int) : Date :=
  ⟨if m < 10 then y else y + 1, (monthOf m).toNat, day.toNat⟩

theorem marchYear_marchDate {y m day : Int} (h₁ : 0 ≤ m) (h₂ : m ≤ 11) :
    (marchDate y m day).marchYear = y := by
  simp only [Date.marchYear, marchDate, monthOf]
  split <;> split <;> omega

theorem marchMonth_marchDate {y m day : Int} (h₁ : 0 ≤ m) (h₂ : m ≤ 11) :
    (marchDate y m day).marchMonth = m := by
  simp only [Date.marchMonth, marchDate, monthOf]
  split <;> omega

/-- A March year is at least as long as the months of the calendar in it. -/
theorem marchDate_isValid {y m dayOfYear : Int} (h₁ : 0 ≤ dayOfYear) (h₂ : dayOfYear ≤ 365)
    (hm : m = (5 * dayOfYear + 2) / 153) (hleap : dayOfYear = 365 → isLeap (y + 1) = true) :
    (marchDate y m (dayOfYear - monthStart m + 1)).IsValid := by
  have hm₁ : 0 ≤ m := by omega
  have hm₂ : m ≤ 11 := by omega
  have hlow : 153 * m ≤ 5 * dayOfYear + 2 := by omega
  have hhigh : 5 * dayOfYear + 2 < 153 * m + 153 := by omega
  clear hm
  refine ⟨?_, ?_, ?_, ?_⟩ <;> simp only [marchDate, monthOf, monthStart]
  · split <;> omega
  · split <;> omega
  · omega
  · interval_cases m
    case «11» =>
      by_cases hlast : dayOfYear = 365
      · simp [monthLength, hleap hlast, hlast]
      · have hshort : 28 ≤ monthLength (y + 1) 2 := by
          simp only [monthLength, beq_self_eq_true, if_true]
          split <;> omega
        simp
        omega
    all_goals
      simp [monthLength]
      omega

/-- The date of a day: which March year, and which day of it. -/
theorem civil_eq (n : Int) : ∃ y dayOfYear : Int,
    0 ≤ dayOfYear ∧ dayOfYear ≤ 365 ∧ (dayOfYear = 365 → isLeap (y + 1) = true) ∧
    dayOfMarchYear y + dayOfYear = n + 719468 ∧
    civil n = marchDate y ((5 * dayOfYear + 2) / 153)
      (dayOfYear - monthStart ((5 * dayOfYear + 2) / 153) + 1) := by
  obtain ⟨century, period, year, day, h⟩ := exists_eraSplit ((n + 719468) % 146097)
    (by omega) (by omega)
  refine ⟨100 * century + 4 * period + year + (n + 719468) / 146097 * 400, day, h.day_nonneg,
    h.day_le, ?_, ?_, ?_⟩
  · intro hday
    obtain ⟨hyear, hperiod⟩ := h.leap hday
    rw [isLeap_iff]
    have := h.century_le
    have := h.period_le
    have := h.period_nonneg
    have := h.century_nonneg
    omega
  · obtain ⟨hsum, _, _, _, _, _, _, _, _, _⟩ := h
    have hquarter : (100 * century + 4 * period + year) / 4 = 25 * century + period := by omega
    have hcentury : (100 * century + 4 * period + year) / 100 = century := by omega
    rw [dayOfMarchYear_era _ (by omega) (by omega), hquarter, hcentury]
    omega
  · simp only [civil, h.yearOfEra_eq, h.dayOfYear_eq, marchDate, monthOf, monthStart, Date.mk.injEq,
      and_true]
    have hday := h.day_nonneg
    have hday' := h.day_le
    split <;> split <;> omega

/-! ## §4 Numbering -/

/-- Every day number has a date on the calendar. -/
theorem civil_isValid (n : Int) : (civil n).IsValid := by
  obtain ⟨y, dayOfYear, h₁, h₂, hleap, -, heq⟩ := civil_eq n
  rw [heq]
  exact marchDate_isValid h₁ h₂ rfl hleap

/-- The number of the date of a day is the day. -/
theorem days_civil (n : Int) : days (civil n) = n := by
  obtain ⟨y, dayOfYear, h₁, h₂, hleap, hsum, heq⟩ := civil_eq n
  have hday := (marchDate_isValid h₁ h₂ rfl hleap).day_pos
  rw [heq, days_eq, marchYear_marchDate (by omega) (by omega),
    marchMonth_marchDate (by omega) (by omega)]
  simp only [marchDate] at hday ⊢
  omega

/-- Months of a March year do not run into one another. -/
theorem monthStart_add_day {d : Date} (h : d.IsValid) (hfebruary : d.month ≠ 2) :
    monthStart d.marchMonth + d.day ≤ monthStart (d.marchMonth + 1) := by
  obtain ⟨year, month, day⟩ := d
  obtain ⟨h₁, h₂, -, hday⟩ := h
  simp only [Date.marchMonth, monthStart] at *
  interval_cases month <;> simp [monthLength] at hday hfebruary ⊢ <;> omega

theorem monthStart_mono {m m' : Int} (h : m ≤ m') : monthStart m ≤ monthStart m' := by
  rw [monthStart, monthStart]
  omega

/-- Nor do March years. -/
theorem days_lt_nextYear {d : Date} (h : d.IsValid) :
    days d < dayOfMarchYear (d.marchYear + 1) - 719468 := by
  rw [days_eq]
  by_cases hfebruary : d.month = 2
  · obtain ⟨year, month, day⟩ := d
    obtain rfl : month = 2 := hfebruary
    have hday : day ≤ if isLeap year = true then 29 else 28 := h.day_le
    have hyear : Date.marchYear ⟨year, 2, day⟩ = year - 1 := rfl
    have hmonth : Date.marchMonth ⟨year, 2, day⟩ = 11 := rfl
    have hstart : monthStart 11 = 337 := rfl
    rw [hyear, hmonth, hstart, Int.sub_add_cancel, dayOfMarchYear, dayOfMarchYear]
    dsimp only
    by_cases hleap : isLeap year = true
    · rw [if_pos hleap] at hday
      rw [isLeap_iff] at hleap
      omega
    · rw [if_neg hleap] at hday
      omega
  · have hday := monthStart_add_day h hfebruary
    have hmonth : monthStart (d.marchMonth + 1) ≤ monthStart 11 := by
      refine monthStart_mono ?_
      have := h.month_le
      rw [Date.marchMonth]
      omega
    have hend : monthStart 11 = 337 := rfl
    rw [dayOfMarchYear, dayOfMarchYear]
    omega

theorem Date.before_iff_march {d d' : Date} (h : d.IsValid) (h' : d'.IsValid) :
    d.Before d' ↔ d.marchYear < d'.marchYear ∨ d.marchYear = d'.marchYear ∧
      (d.marchMonth < d'.marchMonth ∨ d.marchMonth = d'.marchMonth ∧ d.day < d'.day) := by
  have h₁ := h.month_pos
  have h₂ := h.month_le
  have h₁' := h'.month_pos
  have h₂' := h'.month_le
  simp only [Before, marchYear, marchMonth]
  split <;> split <;> omega

/-- Later dates have greater numbers. -/
theorem days_lt_days {d d' : Date} (h : d.IsValid) (h' : d'.IsValid) (hlt : d.Before d') :
    days d < days d' := by
  have hday := h.day_pos
  have hday' := h'.day_pos
  rcases (Date.before_iff_march h h').mp hlt with hyear | ⟨hyear, hmonth | ⟨hmonth, hlt⟩⟩
  · have hnext := days_lt_nextYear h
    have hmono := dayOfMarchYear_mono (Int.add_one_le_of_lt hyear)
    have hstart : 0 ≤ monthStart d'.marchMonth := by
      have : 0 ≤ d'.marchMonth := Int.natCast_nonneg _
      rw [monthStart]
      omega
    rw [days_eq d']
    omega
  · have hfebruary : d.month ≠ 2 := by
      intro hfebruary
      simp only [Date.marchMonth, hfebruary] at hmonth
      omega
    have hend := monthStart_add_day h hfebruary
    have hmono := monthStart_mono (Int.add_one_le_of_lt hmonth)
    rw [days_eq, days_eq, hyear]
    omega
  · rw [days_eq, days_eq, hyear, hmonth]
    omega

/-- Later days have later dates. -/
theorem civil_before {m n : Int} (h : m < n) : (civil m).Before (civil n) := by
  have hm := days_civil m
  have hn := days_civil n
  rcases Date.before_or_eq_or_after (civil m) (civil n) with hlt | heq | hgt
  · exact hlt
  · rw [heq] at hm
    omega
  · have := days_lt_days (civil_isValid n) (civil_isValid m) hgt
    omega

/-- The date of the number of a date is the date. -/
theorem civil_days {d : Date} (h : d.IsValid) : civil (days d) = d := by
  have hdays := days_civil (days d)
  rcases Date.before_or_eq_or_after (civil (days d)) d with hlt | heq | hgt
  · have := days_lt_days (civil_isValid _) h hlt
    omega
  · exact heq
  · have := days_lt_days h (civil_isValid _) hgt
    omega

end Runwatch.Time
