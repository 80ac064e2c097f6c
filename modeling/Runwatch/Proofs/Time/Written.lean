/-
Runwatch.Proofs.Time.Written — instants as texts.

An instant is written in fields of fixed width, the greater unit first, and
then the digits of its fraction that are needed. So for years of four digits
and outside leap seconds the texts are ordered as the instants are: the
fields are compared one after the other, and of two fractions the one that
ends first goes on with the offset's sign, which stands before the point and
before every digit. Such a text is read back, at fixed places and by the reader
that also takes short fields and blanks.

  §1 Layout — date, clock and fraction of an instant.
  §2 Order — `rfc3339_lt_rfc3339`.
  §3 Reading — `parseStrict_rfc3339`.
  §4 Free reading — `parseRelaxed_zulu`.
-/
import Runwatch.Proofs.Text.Blank
import Runwatch.Proofs.Text.ByteOrder
import Runwatch.Proofs.Text.Decimal
import Runwatch.Proofs.Time.Calendar
import Runwatch.Time.Rfc3339

namespace Runwatch.Time

open Text (padded Writes writes_padded isDigit digitValue natOfDigits)

/-! ## §1 Layout -/

/-- The date of an instant. -/
def Instant.date (t : Instant) : Date := civil (t.secs / 86400)

/-- The seconds of an instant's day before it. -/
def Instant.secondOfDay (t : Instant) : Nat := (t.secs % 86400).toNat

/-- An instant in a year of four digits and not in a leap second. -/
structure Instant.IsCommon (t : Instant) : Prop where
  year_nonneg : 0 ≤ t.date.year
  year_le : t.date.year ≤ 9999
  nanos_lt : t.nanos < 1000000000

instance (t : Instant) : Decidable t.IsCommon :=
  decidable_of_iff (0 ≤ t.date.year ∧ t.date.year ≤ 9999 ∧ t.nanos < 1000000000)
    ⟨fun h => ⟨h.1, h.2.1, h.2.2⟩, fun h => ⟨h.year_nonneg, h.year_le, h.nanos_lt⟩⟩

/-- A date as it is written. -/
def dateChars (d : Date) : List Char :=
  (padded 4 d.year.toNat).toList ++ '-' :: ((padded 2 d.month).toList ++
    '-' :: (padded 2 d.day).toList)

/-- A second of a day as it is written. -/
def clockChars (second : Nat) : List Char :=
  (padded 2 (second / 3600)).toList ++ ':' :: ((padded 2 (second / 60 % 60)).toList ++
    ':' :: (padded 2 (second % 60)).toList)

/-- The offset of universal time. -/
def offsetChars : List Char := ['+', '0', '0', ':', '0', '0']

theorem localText_toList {t : Instant} (ht : t.IsCommon) :
    t.localText.toList =
      dateChars t.date ++ 'T' :: (clockChars t.secondOfDay ++ (fractionText t.nanos).toList) := by
  have hyear : yearText t.date.year = padded 4 t.date.year.toNat :=
    if_pos ⟨ht.year_nonneg, ht.year_le⟩
  have hleap : ¬ t.nanos ≥ 1000000000 := Nat.not_le.mpr ht.nanos_lt
  rw [Instant.date] at hyear
  simp only [Instant.localText, hleap, if_false, hyear, Nat.add_zero, String.toList_append,
    dateChars, clockChars, Instant.date, Instant.secondOfDay]
  simp

theorem rfc3339_toList {t : Instant} (ht : t.IsCommon) :
    t.rfc3339.toList = dateChars t.date ++
      'T' :: (clockChars t.secondOfDay ++ ((fractionText t.nanos).toList ++ offsetChars)) := by
  rw [Instant.rfc3339, String.toList_append, localText_toList ht]
  simp [offsetChars]

theorem Date.IsValid.day_le_31 {d : Date} (h : d.IsValid) : d.day ≤ 31 := by
  have hday := h.day_le
  rw [monthLength] at hday
  split at hday
  · split at hday <;> omega
  · split at hday <;> omega

/-- The days of a month are written in two digits. -/
theorem Date.IsValid.day_lt {d : Date} (h : d.IsValid) : d.day < 10 ^ 2 :=
  Nat.lt_of_le_of_lt h.day_le_31 (by decide)

/-- The digits of a fraction that is not zero; they write it with the zeros
that are left out. -/
structure IsFraction (n : Nat) (digits : List Char) : Prop where
  text : (fractionText n).toList = '.' :: digits
  ne_nil : digits ≠ []
  length_le : digits.length ≤ 9
  writes : Writes 9 n (digits ++ List.replicate (9 - digits.length) '0')

theorem isFraction_padded {n : Nat} (width count q : Nat) (hw : 0 < width)
    (hwidth : width + count = 9) (hq : q < 10 ^ width) (hn : n = q * 10 ^ count)
    (htext : fractionText n = "." ++ padded width q) : IsFraction n (padded width q).toList := by
  have hq := writes_padded hw hq
  have hcount : 9 - (padded width q).toList.length = count := by
    rw [hq.length]
    omega
  refine ⟨?_, ?_, ?_, ?_⟩
  · rw [htext, String.toList_append]
    rfl
  · exact List.ne_nil_of_length_pos (by rw [hq.length]; exact hw)
  · rw [hq.length]
    omega
  · have hzeros := hq.zeros count
    rwa [hwidth, ← hn, ← hcount] at hzeros

/-- A fraction is written in three, six or nine digits. -/
theorem exists_isFraction {n : Nat} (h₀ : n ≠ 0) (h : n < 1000000000) :
    ∃ digits, IsFraction n digits := by
  by_cases h6 : n % 1000000 = 0
  · exact ⟨_, isFraction_padded 3 6 (n / 1000000) (by decide) rfl (by omega) (by omega)
      (by simp [fractionText, h₀, h6])⟩
  · by_cases h3 : n % 1000 = 0
    · exact ⟨_, isFraction_padded 6 3 (n / 1000) (by decide) rfl (by omega) (by omega)
        (by simp [fractionText, h₀, h6, h3])⟩
    · exact ⟨_, isFraction_padded 9 0 n (by decide) rfl (by omega) (by omega)
        (by simp [fractionText, h₀, h6, h3])⟩

theorem IsFraction.digits {n : Nat} {digits : List Char} (h : IsFraction n digits) :
    ∀ c ∈ digits, isDigit c = true :=
  fun c hc => h.writes.digits c (List.mem_append_left _ hc)

/-! ## §2 Order -/

/-- The smaller fraction comes first, also if it ends earlier. -/
theorem fractionText_lt {m n : Nat} (h : m < n) (hn : n < 1000000000) :
    (fractionText m).toList ++ offsetChars < (fractionText n).toList ++ offsetChars := by
  obtain ⟨vs, hvs⟩ := exists_isFraction (Nat.ne_of_gt (Nat.zero_lt_of_lt h)) hn
  rw [hvs.text]
  by_cases h₀ : m = 0
  · rw [h₀]
    exact List.cons_lt_cons_iff.mpr (.inl (by decide))
  · obtain ⟨us, hus⟩ := exists_isFraction h₀ (Nat.lt_trans h hn)
    rw [hus.text]
    refine List.cons_lt_cons_iff.mpr (.inr ⟨rfl, ?_⟩)
    refine Text.lt_of_zeros_lt ?_ hus.digits hvs.digits ?_ (hus.writes.lt hvs.writes h) _
    · intro c hc
      have hlow : 48 ≤ c.toNat := (Text.isDigit_iff.mp hc).1
      exact (show 43 < c.toNat by omega)
    · have := hus.length_le
      have := hvs.length_le
      omega

theorem clockChars_lt {r s : Nat} (hr : r < 86400) (hs : s < 86400) {xs ys : List Char}
    (h : r < s ∨ r = s ∧ xs < ys) : clockChars r ++ xs < clockChars s ++ ys := by
  have hfields : r / 3600 < s / 3600 ∨ r / 3600 = s / 3600 ∧
      (r / 60 % 60 < s / 60 % 60 ∨ r / 60 % 60 = s / 60 % 60 ∧
        (r % 60 < s % 60 ∨ r % 60 = s % 60 ∧ xs < ys)) := by
    rcases h with h | ⟨rfl, h⟩
    · by_cases hhour : r / 3600 = s / 3600
      · by_cases hminute : r / 60 % 60 = s / 60 % 60
        · exact .inr ⟨hhour, .inr ⟨hminute, .inl (by omega)⟩⟩
        · exact .inr ⟨hhour, .inl (by omega)⟩
      · exact .inl (by omega)
    · exact .inr ⟨rfl, .inr ⟨rfl, .inr ⟨rfl, h⟩⟩⟩
  simp only [clockChars, List.append_assoc, List.cons_append]
  refine Text.padded_append_lt (by decide) (by omega) (by omega) (hfields.imp_right ?_)
  rintro ⟨hhour, hfields⟩
  refine ⟨hhour, List.cons_lt_cons_iff.mpr (.inr ⟨rfl, ?_⟩)⟩
  refine Text.padded_append_lt (by decide) (by omega) (by omega) (hfields.imp_right ?_)
  rintro ⟨hminute, hfields⟩
  refine ⟨hminute, List.cons_lt_cons_iff.mpr (.inr ⟨rfl, ?_⟩)⟩
  exact Text.padded_append_lt (by decide) (by omega) (by omega) hfields

theorem dateChars_lt {d e : Date} (hd : d.IsValid) (he : e.IsValid) (hd₀ : 0 ≤ d.year)
    (hd₁ : d.year ≤ 9999) (he₀ : 0 ≤ e.year) (he₁ : e.year ≤ 9999) {xs ys : List Char}
    (h : d.Before e ∨ d = e ∧ xs < ys) : dateChars d ++ xs < dateChars e ++ ys := by
  have hfields : d.year.toNat < e.year.toNat ∨ d.year.toNat = e.year.toNat ∧
      (d.month < e.month ∨ d.month = e.month ∧ (d.day < e.day ∨ d.day = e.day ∧ xs < ys)) := by
    rcases h with h | ⟨rfl, h⟩
    · rw [Date.Before] at h
      omega
    · exact .inr ⟨rfl, .inr ⟨rfl, .inr ⟨rfl, h⟩⟩⟩
  have hmonth : d.month < 10 ^ 2 := Nat.lt_of_le_of_lt hd.month_le (by decide)
  have hmonth' : e.month < 10 ^ 2 := Nat.lt_of_le_of_lt he.month_le (by decide)
  simp only [dateChars, List.append_assoc, List.cons_append]
  refine Text.padded_append_lt (by decide) (by omega) (by omega) (hfields.imp_right ?_)
  rintro ⟨hyear, hfields⟩
  refine ⟨hyear, List.cons_lt_cons_iff.mpr (.inr ⟨rfl, ?_⟩)⟩
  refine Text.padded_append_lt (by decide) hmonth hmonth' (hfields.imp_right ?_)
  rintro ⟨hmonth, hfields⟩
  refine ⟨hmonth, List.cons_lt_cons_iff.mpr (.inr ⟨rfl, ?_⟩)⟩
  exact Text.padded_append_lt (by decide) hd.day_lt he.day_lt hfields

theorem Instant.secondOfDay_lt (t : Instant) : t.secondOfDay < 86400 := by
  rw [secondOfDay]
  omega

theorem Instant.date_isValid (t : Instant) : t.date.IsValid := civil_isValid _

/-- The earlier one of two instants has the earlier date, or the earlier time
of day on the same date. -/
theorem Instant.date_before {s t : Instant} (h : s.before t = true) :
    s.date.Before t.date ∨ s.date = t.date ∧
      (s.secondOfDay < t.secondOfDay ∨ s.secondOfDay = t.secondOfDay ∧ s.nanos < t.nanos) := by
  have hunits : s.secs / 86400 < t.secs / 86400 ∨ s.secs / 86400 = t.secs / 86400 ∧
      (s.secondOfDay < t.secondOfDay ∨ s.secondOfDay = t.secondOfDay ∧ s.nanos < t.nanos) := by
    rw [before_iff] at h
    rw [secondOfDay, secondOfDay]
    omega
  refine hunits.imp civil_before ?_
  rintro ⟨hday, hunits⟩
  exact ⟨congrArg civil hday, hunits⟩

/-- The earlier one of two instants is written first. -/
theorem rfc3339_lt_of_before {s t : Instant} (hs : s.IsCommon) (ht : t.IsCommon)
    (h : s.before t = true) : s.rfc3339 < t.rfc3339 := by
  rw [String.lt_iff, rfc3339_toList hs, rfc3339_toList ht]
  refine dateChars_lt s.date_isValid t.date_isValid hs.year_nonneg hs.year_le ht.year_nonneg
    ht.year_le ((Instant.date_before h).imp_right ?_)
  rintro ⟨hdate, hunits⟩
  refine ⟨hdate, List.cons_lt_cons_iff.mpr (.inr ⟨rfl, ?_⟩)⟩
  refine clockChars_lt s.secondOfDay_lt t.secondOfDay_lt (hunits.imp_right ?_)
  rintro ⟨hsecond, hnanos⟩
  exact ⟨hsecond, fractionText_lt hnanos ht.nanos_lt⟩

/-- Texts of instants are ordered as the instants are. -/
theorem rfc3339_lt_rfc3339 {s t : Instant} (hs : s.IsCommon) (ht : t.IsCommon) :
    s.rfc3339 < t.rfc3339 ↔ s.before t = true := by
  refine ⟨fun hlt => ?_, rfc3339_lt_of_before hs ht⟩
  rcases Instant.before_or_eq_or_after s t with hbefore | rfl | hafter
  · exact hbefore
  · exact absurd hlt (String.lt_irrefl _)
  · exact absurd hlt (String.lt_asymm (rfc3339_lt_of_before ht hs hafter))

/-- No text is written for two instants. -/
theorem rfc3339_inj {s t : Instant} (hs : s.IsCommon) (ht : t.IsCommon) :
    s.rfc3339 = t.rfc3339 ↔ s = t := by
  refine ⟨fun heq => ?_, congrArg _⟩
  have hne {s t : Instant} (hs : s.IsCommon) (ht : t.IsCommon) (heq : s.rfc3339 = t.rfc3339) :
      s.before t = false := by
    rw [Bool.eq_false_iff]
    intro hbefore
    have hlt := rfc3339_lt_of_before hs ht hbefore
    rw [heq] at hlt
    exact String.lt_irrefl _ hlt
  rcases Instant.before_or_eq_or_after s t with hbefore | rfl | hafter
  · rw [hne hs ht heq] at hbefore
    cases hbefore
  · rfl
  · rw [hne ht hs heq.symm] at hafter
    cases hafter

/-! ## §3 Reading -/

theorem pairAt_eq {cs : List Char} {i : Nat} {a b : Char} (ha : cs[i]? = some a)
    (hb : cs[i + 1]? = some b) (hda : isDigit a = true) (hdb : isDigit b = true) :
    pairAt cs i = .ok (10 * digitValue a + digitValue b) := by
  simp only [pairAt, digitAt, ha, hb, hda, hdb, if_true]
  rfl

theorem expectAt_eq {cs : List Char} {i : Nat} {accepted : Char → Bool} {c : Char}
    (hc : cs[i]? = some c) (h : accepted c = true) : expectAt cs i accepted = .ok () := by
  simp only [expectAt, hc, h, if_true]

/-- A text is at least as many bytes long as characters. -/
theorem length_le_byteLength (cs : List Char) : cs.length ≤ byteLength cs := by
  induction cs with
  | nil => exact Nat.le_refl 0
  | cons c cs ih =>
    have hc : 0 < (Text.Utf8.encodeChar c).length := by
      rcases Text.Utf8.encodeChar_cases c with h | h | h | h <;> simp [h]
    rw [byteLength, Text.Utf8.encode_cons, List.length_append, List.length_cons, Nat.add_comm]
    exact Nat.add_le_add hc ih

/-- A run of digits is taken up to its end, or as far as it may reach. -/
theorem takeWhile_run {width : Nat} {digits rest : List Char}
    (hdigits : ∀ c ∈ digits, isDigit c = true) (hlen : digits.length ≤ width)
    (hend : digits.length = width ∨ ∀ c ∈ rest.head?, isDigit c = false) :
    ((digits ++ rest).take width).takeWhile isDigit = digits := by
  rw [List.take_append, List.take_of_length_le hlen, List.takeWhile_append_of_pos hdigits]
  rcases hend with hend | hend
  · simp [hend]
  · cases rest with
    | nil => simp
    | cons c rest =>
      have hc := hend c rfl
      cases width - digits.length <;> simp [hc]

theorem readDigits_run {width : Nat} {digits rest : List Char}
    (hdigits : ∀ c ∈ digits, isDigit c = true) (hne : digits ≠ []) (hlen : digits.length ≤ width)
    (hend : digits.length = width ∨ ∀ c ∈ rest.head?, isDigit c = false)
    (hlimit : natOfDigits 0 digits < readLimit) :
    readDigits width (digits ++ rest) = .ok (natOfDigits 0 digits, rest) := by
  have hrun := takeWhile_run hdigits hlen hend
  have hsome : (digits ++ rest).isEmpty = false := by simp [hne]
  have hne : digits.isEmpty = false := by simpa using hne
  simp only [readDigits, hrun, hsome, hne, hlimit, if_true, List.drop_left, Bool.false_eq_true,
    if_false]

/-- A fraction is read up to what follows its digits. -/
theorem readFraction_eq {n : Nat} {digits : List Char} (h : IsFraction n digits) {c : Char}
    (hc : isDigit c = false) (rest : List Char) :
    readFraction (digits ++ c :: rest) = .ok (n, c :: rest) := by
  have hend : digits.length = 9 ∨ ∀ d ∈ (c :: rest).head?, isDigit d = false :=
    .inr fun d hd => Option.some.inj hd ▸ hc
  have hvalue : natOfDigits 0 digits * 10 ^ (9 - digits.length) = n := by
    rw [← h.writes.value, Text.natOfDigits_append, Text.natOfDigits_zeros]
  have hlimit : natOfDigits 0 digits < readLimit := by
    refine Nat.lt_of_lt_of_le (Text.natOfDigits_lt h.digits) ?_
    exact Nat.le_trans (Nat.pow_le_pow_right (by decide) h.length_le) (by decide)
  have hnext : (c :: rest).dropWhile isDigit = c :: rest :=
    List.dropWhile_cons_of_neg (by simp [hc])
  rw [readFraction, readDigits_run h.digits h.ne_nil h.length_le hend hlimit,
    takeWhile_run h.digits h.length_le hend]
  change Except.ok (natOfDigits 0 digits * 10 ^ (9 - digits.length),
    (c :: rest).dropWhile isDigit) = _
  rw [hvalue, hnext]

/-- The date and the clock of a text stand at their places. -/
structure Placed (t : Instant) (cs rest : List Char) : Prop where
  year : ∃ high low, pairAt cs 0 = .ok high ∧ pairAt cs 2 = .ok low ∧
    ((100 * high + low : Nat) : Int) = t.date.year
  dash : expectAt cs 4 (· == '-') = .ok ()
  month : pairAt cs 5 = .ok t.date.month
  dash' : expectAt cs 7 (· == '-') = .ok ()
  day : pairAt cs 8 = .ok t.date.day
  letter : expectAt cs 10 (fun c => c == 'T' || c == 't' || c == ' ') = .ok ()
  hour : pairAt cs 11 = .ok (t.secondOfDay / 3600)
  colon : expectAt cs 13 (· == ':') = .ok ()
  minute : pairAt cs 14 = .ok (t.secondOfDay / 60 % 60)
  colon' : expectAt cs 16 (· == ':') = .ok ()
  second : pairAt cs 17 = .ok (t.secondOfDay % 60)
  rest : cs.drop 19 = rest

theorem placed {t : Instant} (ht : t.IsCommon) (rest : List Char) :
    Placed t (dateChars t.date ++ 'T' :: (clockChars t.secondOfDay ++ rest)) rest := by
  have hdate := t.date_isValid
  have hclock := t.secondOfDay_lt
  have hyear : t.date.year.toNat < 10 ^ 4 := by
    have := ht.year_le
    omega
  have hmonth : t.date.month < 10 ^ 2 := Nat.lt_of_le_of_lt hdate.month_le (by decide)
  obtain ⟨y₁, y₂, y₃, y₄, hy, hy₁, hy₂, hy₃, hy₄, hyear⟩ := (writes_padded (by decide) hyear).quad
  obtain ⟨m₁, m₂, hm, hm₁, hm₂, hmonth⟩ := (writes_padded (by decide) hmonth).pair
  obtain ⟨d₁, d₂, hd, hd₁, hd₂, hday⟩ := (writes_padded (by decide) hdate.day_lt).pair
  have hhour : t.secondOfDay / 3600 < 10 ^ 2 := by omega
  have hminute : t.secondOfDay / 60 % 60 < 10 ^ 2 := by omega
  have hsecond : t.secondOfDay % 60 < 10 ^ 2 := by omega
  obtain ⟨h₁, h₂, hh, hh₁, hh₂, hhour⟩ := (writes_padded (by decide) hhour).pair
  obtain ⟨i₁, i₂, hi, hi₁, hi₂, hminute⟩ := (writes_padded (by decide) hminute).pair
  obtain ⟨s₁, s₂, hs, hs₁, hs₂, hsecond⟩ := (writes_padded (by decide) hsecond).pair
  rw [dateChars, clockChars, hy, hm, hd, hh, hi, hs]
  refine ⟨⟨_, _, pairAt_eq rfl rfl hy₁ hy₂, pairAt_eq rfl rfl hy₃ hy₄, ?_⟩, expectAt_eq rfl rfl,
    hmonth ▸ pairAt_eq rfl rfl hm₁ hm₂, expectAt_eq rfl rfl, hday ▸ pairAt_eq rfl rfl hd₁ hd₂,
    expectAt_eq rfl rfl, hhour ▸ pairAt_eq rfl rfl hh₁ hh₂, expectAt_eq rfl rfl,
    hminute ▸ pairAt_eq rfl rfl hi₁ hi₂, expectAt_eq rfl rfl,
    hsecond ▸ pairAt_eq rfl rfl hs₁ hs₂, rfl⟩
  rw [hyear]
  exact Int.toNat_of_nonneg ht.year_nonneg

theorem Instant.IsCommon.date?_eq {t : Instant} (ht : t.IsCommon) :
    date? t.date.year t.date.month t.date.day = some t.date := by
  refine date?_of_isValid t.date_isValid ?_ ?_
  · exact Int.le_trans (by decide) ht.year_nonneg
  · exact Int.le_trans ht.year_le (by decide)

/-- The parts of an instant put together. -/
theorem assemble_eq {t : Instant} (ht : t.IsCommon) :
    assemble t.date (t.secondOfDay / 3600) (t.secondOfDay / 60 % 60) (t.secondOfDay % 60)
      t.nanos 0 = .ok t := by
  have hsecs : days t.date * 86400 + ((t.secondOfDay / 3600 * 3600 + t.secondOfDay / 60 % 60 * 60
      + t.secondOfDay % 60 : Nat) : Int) - 0 = t.secs := by
    rw [Instant.date, days_civil]
    have hclock : t.secondOfDay / 3600 * 3600 + t.secondOfDay / 60 % 60 * 60
        + t.secondOfDay % 60 = t.secondOfDay := by omega
    rw [hclock, Instant.secondOfDay]
    omega
  have hfirst : days ⟨leastYear, 1, 1⟩ < days t.date := by
    refine days_lt_days ⟨by decide, by decide, by decide, by decide⟩ t.date_isValid (.inl ?_)
    exact Int.lt_of_lt_of_le (by decide) ht.year_nonneg
  have hlast : days t.date < days ⟨greatestYear, 12, 31⟩ := by
    refine days_lt_days t.date_isValid ⟨by decide, by decide, by decide, by decide⟩ (.inl ?_)
    exact Int.lt_of_le_of_lt ht.year_le (by decide)
  have hrange : t.inRange = true := by
    rw [Instant.date, days_civil] at hfirst hlast
    rw [Instant.inRange, Bool.and_eq_true, decide_eq_true_eq, decide_eq_true_eq, leastSecond,
      greatestSecond]
    omega
  rw [assemble, hsecs]
  simp only [hrange, if_true]
  rfl

/-- The offset of universal time is none. -/
theorem readOffset_eq {separator : List Char → Except TimeError (List Char)}
    (h : separator [':', '0', '0'] = .ok ['0', '0']) :
    readOffset separator ['+', '0', '0', ':', '0', '0'] = .ok (0, []) := by
  have hdigits (rest : List Char) : twoDigits ('0' :: '0' :: rest) = .ok (0, 0) := rfl
  have hlength : ¬ byteLength ['0', '0'] < 2 := by decide
  simp only [readOffset, hdigits, List.drop_succ_cons, List.drop_zero, h, hlength, bind,
    Except.bind, pure, Except.pure, if_false]
  rfl

/-- The text of an instant is read back. -/
theorem parseStrict_rfc3339 {t : Instant} (ht : t.IsCommon) : parseStrict t.rfc3339 = .ok t := by
  have hplaced := placed ht ((fractionText t.nanos).toList ++ offsetChars)
  rw [← rfc3339_toList ht] at hplaced
  generalize hcs : t.rfc3339.toList = cs at hplaced
  obtain ⟨high, low, hhigh, hlow, hyear⟩ := hplaced.year
  have hlong : ¬ byteLength cs < 19 := by
    have hrest := congrArg List.length hplaced.rest
    have hbytes := length_le_byteLength cs
    simp only [List.length_drop, List.length_append, offsetChars, List.length_cons] at hrest
    omega
  have hsixty : (t.secondOfDay % 60 == 60) = false := by
    rw [beq_eq_false_iff_ne]
    omega
  have hlimits : (decide (t.secondOfDay / 3600 ≥ 24) || decide (t.secondOfDay / 60 % 60 ≥ 60)
      || decide (t.secondOfDay % 60 ≥ 60)) = false := by
    have := t.secondOfDay_lt
    simp only [ge_iff_le, Bool.or_eq_false_iff, decide_eq_false_iff_not, not_le]
    omega
  rw [parseStrict, hcs]
  simp only [hlong, if_false, hhigh, hlow, hplaced.dash, hplaced.month, hplaced.dash', hplaced.day,
    hyear, ht.date?_eq, hplaced.letter, hplaced.hour, hplaced.colon, hplaced.minute, hplaced.colon',
    hplaced.second, hsixty, hplaced.rest, bind, Except.bind, Bool.false_eq_true, hlimits]
  by_cases h₀ : t.nanos = 0
  · have hfraction : (fractionText t.nanos).toList = [] := by
      rw [h₀]
      rfl
    have hassemble := assemble_eq ht
    rw [h₀] at hassemble
    rw [hfraction, List.nil_append, offsetChars]
    simp only [Nat.zero_add, List.cons.injEq, Char.reduceEq, false_and, imp_self, implies_true]
    rw [readOffset_eq]
    · exact hassemble
    · rfl
  · obtain ⟨digits, hdigits⟩ := exists_isFraction h₀ ht.nanos_lt
    rw [hdigits.text, List.cons_append]
    have hsign : isDigit '+' = false := by decide
    simp only [readFraction_eq hdigits hsign, offsetChars, Nat.zero_add, List.cons.injEq,
      Char.reduceEq, false_and, imp_self, implies_true]
    rw [readOffset_eq]
    · exact assemble_eq ht
    · rfl

/-! ## §4 Free reading -/

theorem zulu_toList {t : Instant} (ht : t.IsCommon) :
    t.zulu.toList = dateChars t.date ++
      'T' :: (clockChars t.secondOfDay ++ ((fractionText t.nanos).toList ++ ['Z'])) := by
  rw [Instant.zulu, String.toList_append, localText_toList ht]
  simp

theorem readDigits_writes {width n : Nat} {cs : List Char} (h : Writes width n cs)
    (hw : 0 < width) (hn : n < readLimit) (rest : List Char) :
    readDigits width (cs ++ rest) = .ok (n, rest) := by
  have hne : cs ≠ [] := List.ne_nil_of_length_pos (h.length ▸ hw)
  rw [readDigits_run h.digits hne (Nat.le_of_eq h.length) (.inl h.length) (h.value.symm ▸ hn),
    h.value]

theorem readField_writes (low high : Nat) {width n : Nat} {cs : List Char}
    (h : Writes width n cs) (hw : 0 < width) (hlow : low ≤ n) (hhigh : n ≤ high)
    (hlimit : high < readLimit) (rest : List Char) :
    readField width low high (cs ++ rest) = .ok (n, rest) := by
  have hne : cs ≠ [] := List.ne_nil_of_length_pos (h.length ▸ hw)
  rw [readField, h.solid.trimLeft_append hne,
    readDigits_writes h hw (Nat.lt_of_le_of_lt hhigh hlimit)]
  change (if (decide (low ≤ n) && decide (n ≤ high)) = true then _ else _) = _
  rw [if_pos (by simp [hlow, hhigh])]
  rfl

/-- A year of four digits is read without a sign. -/
theorem readYear_writes {n : Nat} {cs : List Char} (h : Writes 4 n cs) (rest : List Char) :
    readYear (cs ++ rest) = .ok ((n : Int), rest) := by
  have hn : n < 10 ^ 4 := h.length ▸ h.value ▸ Text.natOfDigits_lt h.digits
  have hread := readDigits_writes h (by decide) (Nat.lt_trans hn (by decide)) rest
  have hne : cs ≠ [] := List.ne_nil_of_length_pos (h.length ▸ by decide)
  have htrim := h.solid.trimLeft_append hne rest
  cases cs with
  | nil => exact absurd rfl hne
  | cons c cs =>
    have hdigit := h.digits c List.mem_cons_self
    -- A digit is no sign, which is looked for first.
    have hsign : ∀ mark, isDigit mark = false → c ≠ mark := by
      rintro mark hmark rfl
      exact absurd (hdigit.symm.trans hmark) nofun
    have hminus : c ≠ '-' := hsign '-' (by decide)
    have hplus : c ≠ '+' := hsign '+' (by decide)
    have hfits : -2147483648 ≤ (n : Int) ∧ (n : Int) ≤ 2147483647 := by omega
    rw [readYear, htrim]
    simp only [List.cons_append] at hread ⊢
    simp [hminus, hplus, hread, bind, Except.bind, hfits]

theorem readMark_cons (mark : Char) (h : Text.isBlank mark = false) (rest : List Char) :
    readMark mark (mark :: rest) = .ok rest := by
  rw [readMark, Text.trimLeft_cons h]
  simp

/-- The text of an instant with a letter for the zone is read back. -/
theorem parseRelaxed_zulu {t : Instant} (ht : t.IsCommon) : parseRelaxed t.zulu = .ok t := by
  have hvalid := t.date_isValid
  have hclock := t.secondOfDay_lt
  have hyear : t.date.year.toNat < 10 ^ 4 := by
    have := ht.year_le
    omega
  have hmonth : t.date.month < 10 ^ 2 := Nat.lt_of_le_of_lt hvalid.month_le (by decide)
  have hhour : t.secondOfDay / 3600 < 10 ^ 2 := by omega
  have hminute : t.secondOfDay / 60 % 60 < 10 ^ 2 := by omega
  have hsecond : t.secondOfDay % 60 < 10 ^ 2 := by omega
  have hyear := readYear_writes (writes_padded (by decide) hyear)
  have hmonth := readField_writes 1 12 (writes_padded (by decide) hmonth) (by decide)
    hvalid.month_pos hvalid.month_le (by decide)
  have hday := readField_writes 1 31 (writes_padded (by decide) hvalid.day_lt) (by decide)
    hvalid.day_pos hvalid.day_le_31 (by decide)
  have hhour := readField_writes 0 23 (writes_padded (by decide) hhour) (by decide)
    (Nat.zero_le _) (by omega) (by decide)
  have hminute := readField_writes 0 59 (writes_padded (by decide) hminute) (by decide)
    (Nat.zero_le _) (by omega) (by decide)
  have hsecond := readField_writes 0 60 (writes_padded (by decide) hsecond) (by decide)
    (Nat.zero_le _) (by omega) (by decide)
  have hdash := readMark_cons '-' (by decide)
  have hcolon := readMark_cons ':' (by decide)
  have hsixty : (t.secondOfDay % 60 == 60) = false := by
    rw [beq_eq_false_iff_ne]
    omega
  have hzone : Text.trimLeft ['Z'] = ['Z'] := Text.trimLeft_cons (by decide) []
  have hdate : date? t.date.year.toNat t.date.month t.date.day = some t.date := by
    rw [Int.toNat_of_nonneg ht.year_nonneg, ht.date?_eq]
  rw [parseRelaxed, zulu_toList ht, dateChars, clockChars]
  simp only [List.append_assoc, List.cons_append, hyear, hdash, hmonth, hday, hhour, hcolon,
    hminute, hsecond, hsixty, hdate, bind, Except.bind, BEq.rfl, Bool.true_or, if_true]
  by_cases h₀ : t.nanos = 0
  · have hfraction : (fractionText t.nanos).toList = [] := by
      rw [h₀]
      rfl
    have hassemble := assemble_eq ht
    rw [h₀] at hassemble
    rw [hfraction, List.nil_append]
    simp only [List.cons.injEq, Char.reduceEq, false_and, imp_self, implies_true, hzone]
    exact hassemble
  · obtain ⟨digits, hdigits⟩ := exists_isFraction h₀ ht.nanos_lt
    have hletter : isDigit 'Z' = false := by decide
    have hassemble := assemble_eq ht
    rw [← Nat.zero_add t.nanos] at hassemble
    rw [hdigits.text, List.cons_append]
    simp only [readFraction_eq hdigits hletter, hzone]
    exact hassemble

end Runwatch.Time
