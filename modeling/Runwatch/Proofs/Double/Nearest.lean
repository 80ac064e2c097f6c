/-
Runwatch.Proofs.Double.Nearest — the decimal that is found for a double.

A finite double is compared with rational numbers by its absolute value
(`size`). The numbers of at most 53 binary digits are the grid of the doubles
(`OnGrid`): a unit above each of them lies the next, and a unit below the one
before, but only half a unit where the significand is a power of two. So a
number between the two middles is rounded to the double (`Within.roundsTo`).

The search tries ever finer powers of ten. Seventeen digits from the first are
fine enough for one of the two multiples next to the double to lie between the
middles (`isSome_hit?`).

  §1 Sizes     — the size of a double, and its neighbours (`OnGrid.gap`).
  §2 Rounding  — the numbers that are rounded to a double (`RoundsTo`).
  §3 Intervals — the interval of a double is that between the middles
                 (`contains_iff`).
  §4 Search    — what a search finds (`shortest_within`).
-/
import Mathlib.Algebra.Order.Field.Power
import Mathlib.Algebra.Order.Ring.Abs
import Mathlib.Data.Nat.Cast.Order.Field
import Mathlib.Data.Rat.Cast.Order
import Mathlib.Tactic.Linarith
import Mathlib.Tactic.NormNum
import Mathlib.Tactic.Positivity
import Mathlib.Tactic.Ring
import Runwatch.Double.Shortest
import Runwatch.Proofs.Text.Decimal

namespace Runwatch

namespace Double

variable {d : Double}

/-! ## §1 Sizes -/

theorem cast_pow_toNat {b : ℕ} {k : ℤ} (h : 0 ≤ k) : ((Nat.pow b k.toNat : ℕ) : ℚ) = (b : ℚ) ^ k := by
  rw [Nat.pow_eq, Nat.cast_pow, ← zpow_natCast, Int.toNat_of_nonneg h]

theorem cast_pow_neg_toNat {b : ℕ} {k : ℤ} (h : k ≤ 0) :
    ((Nat.pow b (-k).toNat : ℕ) : ℚ) = ((b : ℚ) ^ k)⁻¹ := by
  rw [cast_pow_toNat (Int.neg_nonneg.mpr h), zpow_neg]

/-- The absolute value of a finite double. -/
def size (d : Double) : ℚ := d.magnitude.1 / d.magnitude.2

/-- What the last binary digit of the significand weighs. -/
def unit (d : Double) : ℚ := 2 ^ d.scale

theorem unit_pos (d : Double) : 0 < d.unit := zpow_pos (by norm_num) _

theorem size_eq (d : Double) : d.size = d.significand * d.unit := by
  unfold size magnitude unit
  split
  · next h =>
    have hpow := cast_pow_toNat (b := 2) h
    push_cast [hpow]
    simp
  · next h =>
    have hpow := cast_pow_neg_toNat (b := 2) (k := d.scale) (by omega)
    simp only [hpow]
    simp

theorem fractionField_lt (d : Double) : d.fractionField < fractions :=
  Nat.mod_lt _ (by decide)

theorem significand_lt (d : Double) : d.significand < 2 * fractions := by
  have := d.fractionField_lt
  unfold significand
  split <;> omega

theorem significand_pos (h : d.isZero = false) : 0 < d.significand := by
  unfold isZero at h
  unfold significand
  split
  · next hfield =>
    rw [hfield, Bool.true_and, beq_eq_false_iff_ne] at h
    exact Nat.pos_of_ne_zero h
  · exact Nat.add_pos_left (by decide) _

theorem size_pos (h : d.isZero = false) : 0 < d.size := by
  rw [size_eq]
  exact mul_pos (by exact_mod_cast significand_pos h) d.unit_pos

theorem scale_ge (d : Double) : -1074 ≤ d.scale := by
  unfold scale
  split
  · exact Int.le_refl _
  · next h =>
    have hfield : d.exponentField ≠ 0 := by simpa using h
    omega

/-- Only below the least power are there significands with fewer digits. -/
theorem fractions_le_significand (h : -1074 < d.scale) : fractions ≤ d.significand := by
  unfold scale at h
  unfold significand
  split
  · next hfield => simp [hfield] at h
  · exact Nat.le_add_right _ _

/-- How many quarters of a unit lie between a double and the middle to the
one below: at a power of two that one is nearer. -/
def below (d : Double) : ℕ := if d.fractionField == 0 && 1 < d.exponentField then 1 else 2

theorem below_le (d : Double) : d.below ≤ 2 := by
  unfold below
  split <;> decide

theorem below_pos (d : Double) : 0 < d.below := by
  unfold below
  split <;> decide

theorem below_eq_one (hscale : -1074 < d.scale) (h : d.significand = fractions) : d.below = 1 := by
  unfold scale at hscale
  unfold significand at h
  unfold below
  split at h
  · next hfield => simp [hfield] at hscale
  · next hfield =>
    rw [if_neg hfield] at hscale
    have hfraction : d.fractionField = 0 := by omega
    have hexponent : 1 < d.exponentField := by omega
    simp [hfraction, hexponent]

/-- Where the double below is nearer the significand has few digits. -/
theorem significand_of_below (h : d.below = 1) : d.significand = fractions := by
  unfold below at h
  unfold significand
  split at h
  · next hfields =>
    obtain ⟨hfraction, hexponent⟩ : d.fractionField = 0 ∧ 1 < d.exponentField := by
      simpa using hfields
    rw [if_neg (by simpa using Nat.ne_of_gt (Nat.lt_trans Nat.zero_lt_one hexponent)), hfraction]
  · cases h

/-- Numbers of at most 53 binary digits, the last of which weighs at least
`2 ^ -1074`. The doubles are among them, but they go on beyond the largest
double. -/
def OnGrid (y : ℚ) : Prop :=
  ∃ (m : ℕ) (s : ℤ), m ≤ 2 * fractions ∧ -1074 ≤ s ∧ y = m * 2 ^ s

theorem onGrid_size (d : Double) : OnGrid d.size :=
  ⟨d.significand, d.scale, d.significand_lt.le, d.scale_ge, d.size_eq⟩

/-- What is `k` binary digits below the unit weighs so much less. -/
theorem zpow_le_unit {s : ℤ} {k : ℕ} (h : s + k ≤ d.scale) : (2 : ℚ) ^ s ≤ d.unit / 2 ^ k := by
  rw [unit, ← zpow_natCast, ← zpow_sub₀ (by norm_num)]
  exact zpow_le_zpow_right₀ (by norm_num) (by omega)

/-- Below a power of two the grid goes on in half units. -/
theorem gap_below_power {m : ℕ} {s : ℤ} (hm : m ≤ 2 * fractions) (hs : s < d.scale)
    (hne : (m : ℚ) * 2 ^ s ≠ fractions * d.unit) :
    (m : ℚ) * 2 ^ s ≤ fractions * d.unit - d.unit / 2 := by
  have hunit := d.unit_pos
  rcases Nat.lt_or_ge m (2 * fractions) with hfewer | hmost
  · have hm : (m : ℚ) ≤ 2 * fractions - 1 := by
      have : (m : ℚ) + 1 ≤ 2 * fractions := by exact_mod_cast hfewer
      linarith
    have hhalf : (2 : ℚ) ^ s ≤ d.unit / 2 := by simpa using zpow_le_unit (k := 1) hs
    calc (m : ℚ) * 2 ^ s ≤ (2 * fractions - 1) * (d.unit / 2) := by
          exact mul_le_mul hm hhalf (by positivity) (by norm_num)
      _ = fractions * d.unit - d.unit / 2 := by ring
  · obtain rfl := Nat.le_antisymm hm hmost
    -- With a unit of twice the weight it would be the power itself.
    have hscale : s + 1 ≠ d.scale := by
      rintro hscale
      refine hne ?_
      rw [unit, ← hscale, zpow_add_one₀ (by norm_num)]
      push_cast
      ring
    have hquarter : (2 : ℚ) ^ s ≤ d.unit / 2 ^ 2 := zpow_le_unit (by omega)
    calc ((2 * fractions : ℕ) : ℚ) * 2 ^ s ≤ (2 * fractions : ℕ) * (d.unit / 2 ^ 2) := by
          exact mul_le_mul_of_nonneg_left hquarter (Nat.cast_nonneg _)
      _ ≤ fractions * d.unit - d.unit / 2 := by
          push_cast
          linarith

/-- The neighbours of a double on the grid are a unit above it and a unit, or
half a unit, below. -/
theorem OnGrid.gap {y : ℚ} (h : OnGrid y) (hne : y ≠ d.size) :
    y ≤ d.size - d.below * d.unit / 2 ∨ d.size + d.unit ≤ y := by
  obtain ⟨m, s, hm, hs, rfl⟩ := h
  have hunit := d.unit_pos
  have hbelow : (d.below : ℚ) ≤ 2 := by exact_mod_cast d.below_le
  have hle : d.below * d.unit / 2 ≤ d.unit := by nlinarith
  rw [size_eq] at hne ⊢
  rcases Int.lt_or_le s d.scale with hlt | hge
  · left
    have hscale : -1074 < d.scale := by omega
    have hlarge := fractions_le_significand hscale
    by_cases hpower : d.significand = fractions
    · rw [hpower] at hne
      rw [below_eq_one hscale hpower, hpower, Nat.cast_one, one_mul]
      exact gap_below_power hm hlt hne
    · have hmore : (fractions : ℚ) ≤ d.significand - 1 := by
        have : (fractions : ℚ) + 1 ≤ d.significand := by
          exact_mod_cast Nat.lt_of_le_of_ne hlarge (Ne.symm hpower)
        linarith
      have hm : (m : ℚ) ≤ 2 * fractions := by exact_mod_cast hm
      have hhalf : (2 : ℚ) ^ s ≤ d.unit / 2 := by simpa using zpow_le_unit (k := 1) hlt
      calc (m : ℚ) * 2 ^ s ≤ (2 * fractions) * (d.unit / 2) := by
            exact mul_le_mul hm hhalf (by positivity) (by positivity)
        _ = fractions * d.unit := by ring
        _ ≤ (d.significand - 1) * d.unit := mul_le_mul_of_nonneg_right hmore hunit.le
        _ ≤ d.significand * d.unit - d.below * d.unit / 2 := by linarith
  · have hpow : (2 : ℚ) ^ s = 2 ^ (s - d.scale).toNat * d.unit := by
      rw [unit, ← zpow_natCast, Int.toNat_of_nonneg (by omega), ← zpow_add₀ (by norm_num)]
      congr 1
      omega
    have hy : (m : ℚ) * 2 ^ s = (m * 2 ^ (s - d.scale).toNat : ℕ) * d.unit := by
      rw [hpow]
      push_cast
      ring
    rw [hy] at hne ⊢
    generalize m * 2 ^ (s - d.scale).toNat = k at hne
    rcases Nat.lt_trichotomy k d.significand with hlt | rfl | hgt
    · left
      have hk : (k : ℚ) + 1 ≤ d.significand := by exact_mod_cast hlt
      nlinarith
    · exact absurd rfl hne
    · right
      have hk : (d.significand : ℚ) + 1 ≤ k := by exact_mod_cast hgt
      nlinarith

/-! ## §2 Rounding -/

/-- `x` is rounded to `d`: nothing on the grid is nearer, and where something
is as near, the significand of `d` is the even one. -/
def RoundsTo (x : ℚ) (d : Double) : Prop :=
  ∀ y, OnGrid y → y ≠ d.size →
    |x - d.size| < |x - y| ∨ |x - d.size| = |x - y| ∧ Even d.significand

/-- The middle to the neighbour below. -/
def lowEnd (d : Double) : ℚ := d.size - d.below * d.unit / 4

/-- The middle to the neighbour above. -/
def highEnd (d : Double) : ℚ := d.size + d.unit / 2

/-- Between the two middles, or on them if the significand is even. -/
def Within (d : Double) (x : ℚ) : Prop :=
  d.lowEnd < x ∧ x < d.highEnd ∨ Even d.significand ∧ d.lowEnd ≤ x ∧ x ≤ d.highEnd

theorem Within.roundsTo {x : ℚ} (h : d.Within x) : RoundsTo x d := by
  intro y hy hne
  have hgap : 0 < d.below * d.unit :=
    mul_pos (by exact_mod_cast d.below_pos) d.unit_pos
  have hunit := d.unit_pos
  unfold Within lowEnd highEnd at h
  rcases h with ⟨hlow, hhigh⟩ | ⟨heven, hlow, hhigh⟩
  · left
    rcases hy.gap hne with hy | hy
    · exact (abs_lt.mpr ⟨by linarith, by linarith⟩).trans_le (le_abs_self (x - y))
    · exact (abs_lt.mpr ⟨by linarith, by linarith⟩).trans_le (neg_le_abs (x - y))
  · have hle : |x - d.size| ≤ |x - y| := by
      rcases hy.gap hne with hy | hy
      · exact (abs_le.mpr ⟨by linarith, by linarith⟩).trans (le_abs_self (x - y))
      · exact (abs_le.mpr ⟨by linarith, by linarith⟩).trans (neg_le_abs (x - y))
    exact hle.lt_or_eq.imp_right fun heq => ⟨heq, heven⟩

/-! ## §3 Intervals -/

/-- The numbers that make up the interval of a double. -/
theorem exists_interval (d : Double) : ∃ factor power : ℕ, 0 < factor ∧ power ≤ 1076 ∧
    (factor : ℚ) / 2 ^ power = d.unit / 4 ∧
    d.interval = ⟨(4 * d.significand - d.below) * factor, 4 * d.significand * factor,
      (4 * d.significand + 2) * factor, 2 ^ power, d.significand % 2 == 0⟩ := by
  have hquarter : (2 : ℚ) ^ (d.scale - 2) = d.unit / 4 := by
    rw [zpow_sub₀ (by norm_num), unit]
    norm_num
  have hscale := d.scale_ge
  unfold interval
  by_cases h : d.scale - 2 ≥ 0
  · refine ⟨Nat.pow 2 (d.scale - 2).toNat, 0, Nat.pow_pos (by decide), by decide, ?_, ?_⟩
    · rw [cast_pow_toNat h]
      simpa using hquarter
    · simp only [if_pos h]
      rfl
  · refine ⟨1, (-(d.scale - 2)).toNat, by decide, by omega, ?_, ?_⟩
    · have hpow := cast_pow_neg_toNat (b := 2) (k := d.scale - 2) (by omega)
      rw [Nat.pow_eq, Nat.cast_pow] at hpow
      push_cast at hpow
      rw [hpow]
      simpa using hquarter
    · simp only [if_neg h]
      rfl

/-- The interval holds what lies between the two middles. -/
theorem contains_iff (hd : d.isZero = false) {n den : ℕ} (hden : 0 < den) :
    d.interval.contains n den = true ↔ d.Within (n / den) := by
  obtain ⟨factor, power, -, -, hratio, hinterval⟩ := d.exists_interval
  have hm := significand_pos hd
  have hbelow := d.below_le
  have hcast : ((4 * d.significand - d.below : ℕ) : ℚ) = 4 * d.significand - d.below := by
    rw [Nat.cast_sub (by omega)]
    push_cast
    rfl
  have hlow : (((4 * d.significand - d.below) * factor : ℕ) : ℚ) / (2 ^ power : ℕ) = d.lowEnd := by
    push_cast
    rw [mul_div_assoc, hratio, hcast, lowEnd, size_eq]
    ring
  have hhigh : (((4 * d.significand + 2) * factor : ℕ) : ℚ) / (2 ^ power : ℕ) = d.highEnd := by
    push_cast
    rw [mul_div_assoc, hratio, highEnd, size_eq]
    ring
  have hD : (0 : ℚ) < (2 ^ power : ℕ) := by positivity
  have hden : (0 : ℚ) < den := by exact_mod_cast hden
  rw [Within, ← hlow, ← hhigh, hinterval, div_lt_div_iff₀ hD hden, div_lt_div_iff₀ hden hD,
    div_le_div_iff₀ hD hden, div_le_div_iff₀ hden hD]
  unfold RoundingInterval.contains
  norm_cast
  rw [Nat.even_iff]
  by_cases heven : d.significand % 2 = 0
  · simp only [heven, BEq.rfl, if_true, true_and, Bool.and_eq_true, decide_eq_true_eq]
    exact ⟨.inr, fun h => h.elim (fun h => ⟨h.1.le, h.2.le⟩) id⟩
  · simp [heven]

/-! ## §4 Search -/

theorem value_interval (d : Double) :
    (d.interval.value : ℚ) / d.interval.denominator = d.size := by
  obtain ⟨factor, power, -, -, hratio, hinterval⟩ := d.exists_interval
  rw [hinterval, size_eq]
  push_cast
  rw [mul_div_assoc, hratio]
  ring

theorem denominator_interval (d : Double) :
    0 < d.interval.denominator ∧ d.interval.denominator ≤ 10 ^ 400 := by
  obtain ⟨factor, power, -, hpower, -, hinterval⟩ := d.exists_interval
  rw [hinterval]
  have htens (k : ℕ) : 2 ^ (3 * k) ≤ 10 ^ k := by
    rw [Nat.pow_mul]
    exact Nat.pow_le_pow_left (by decide) k
  exact ⟨Nat.two_pow_pos power,
    (Nat.pow_le_pow_right (by decide) (hpower.trans (by decide))).trans (htens 400)⟩

end Double

theorem tensUp_reaches {fuel n den : ℕ} (h : den ≤ n * 10 ^ fuel) :
    den ≤ n * 10 ^ tensUp fuel n den := by
  induction fuel generalizing n with
  | zero => exact h
  | succ fuel ih =>
    rw [tensUp]
    split
    · simpa
    · have hten : den ≤ 10 * n * 10 ^ tensUp fuel (10 * n) den := by
        refine ih (h.trans_eq ?_)
        ring
      refine hten.trans_eq ?_
      ring

/-- The power of ten of the first digit. -/
theorem zpow_leadingExponent_le {n den : ℕ} (hn : 0 < n) (hden : 0 < den) (hsmall : den ≤ 10 ^ 400) :
    (10 : ℚ) ^ leadingExponent n den ≤ n / den := by
  have hden' : (0 : ℚ) < den := by exact_mod_cast hden
  unfold leadingExponent
  split
  · next hle =>
    have hpos : 0 < n / den := Nat.div_pos hle hden
    have hlength := List.length_pos_iff.mpr (Text.decimalChars_ne_nil (n / den))
    have hpow : 10 ^ ((Text.decimalChars (n / den)).length - 1) ≤ n / den := by
      rcases Nat.eq_zero_or_pos ((Text.decimalChars (n / den)).length - 1) with hone | hmore
      · rw [hone]
        exact hpos
      · refine Nat.not_lt.mp fun hlt => ?_
        have := (Text.length_decimalChars_le hmore).mpr hlt
        omega
    calc (10 : ℚ) ^ (((Text.decimalChars (n / den)).length : ℤ) - 1)
        = ((10 ^ ((Text.decimalChars (n / den)).length - 1) : ℕ) : ℚ) := by
          rw [Nat.cast_pow, ← zpow_natCast, Nat.cast_sub hlength]
          rfl
      _ ≤ ((n / den : ℕ) : ℚ) := by exact_mod_cast hpow
      _ ≤ n / den := Nat.cast_div_le
  · have hreach : den ≤ n * 10 ^ tensUp 400 n den :=
      tensUp_reaches (hsmall.trans (Nat.le_mul_of_pos_left _ hn))
    rw [zpow_neg, zpow_natCast, le_div_iff₀ hden', inv_mul_le_iff₀ (by positivity), mul_comm]
    exact_mod_cast hreach

namespace RoundingInterval

/-- The denominator of a power of ten. -/
def up (e : ℤ) : ℕ := if e ≥ 0 then 1 else Nat.pow 10 (-e).toNat

/-- The numerator of a power of ten. -/
def down (e : ℤ) : ℕ := if e ≥ 0 then Nat.pow 10 e.toNat else 1

theorem up_pos (e : ℤ) : 0 < up e := by
  unfold up
  split
  · decide
  · exact Nat.pow_pos (by decide)

theorem down_pos (e : ℤ) : 0 < down e := by
  unfold down
  split
  · exact Nat.pow_pos (by decide)
  · decide

theorem down_div_up (e : ℤ) : (down e : ℚ) / up e = 10 ^ e := by
  unfold down up
  split
  · next h =>
    rw [Double.cast_pow_toNat h]
    simp
  · next h =>
    rw [Double.cast_pow_neg_toNat (by omega)]
    simp

/-- Whether `k * 10 ^ e` lies in the interval. -/
def Holds (i : RoundingInterval) (e : ℤ) (k : ℕ) : Prop := i.contains (k * down e) (up e) = true

/-- The multiple of `10 ^ e` next below the value. -/
def floor (i : RoundingInterval) (e : ℤ) : ℕ := i.value * up e / (i.denominator * down e)

/-- A hit lies in the interval; without one, neither multiple next to the
value does. -/
theorem hit?_cases (i : RoundingInterval) (e : ℤ) :
    (∃ k, i.hit? e = some k ∧ k ≠ 0 ∧ i.Holds e k) ∨
      i.hit? e = none ∧ (i.floor e = 0 ∨ ¬ i.Holds e (i.floor e)) ∧
        ¬ i.Holds e (i.floor e + 1) := by
  unfold hit? Holds floor up down
  generalize (if e ≥ 0 then 1 else Nat.pow 10 (-e).toNat) = u
  generalize (if e ≥ 0 then Nat.pow 10 e.toNat else 1) = w
  simp only
  generalize i.value * u / (i.denominator * w) = q
  have hlower (h : (q != 0 && i.contains (q * w) u) = true) :
      q ≠ 0 ∧ i.contains (q * w) u = true := by simpa using h
  split_ifs with hboth hless hmore hlow hhigh
  · exact .inl ⟨q, rfl, hlower (Bool.and_eq_true_iff.mp hboth).1⟩
  · exact .inl ⟨q + 1, rfl, Nat.succ_ne_zero q, (Bool.and_eq_true_iff.mp hboth).2⟩
  · obtain ⟨hlow, hhigh⟩ := Bool.and_eq_true_iff.mp hboth
    rcases Nat.mod_two_eq_zero_or_one q with heven | hodd
    · exact .inl ⟨q, by rw [heven]; rfl, hlower hlow⟩
    · exact .inl ⟨q + 1, by rw [hodd], Nat.succ_ne_zero q, hhigh⟩
  · exact .inl ⟨q, rfl, hlower hlow⟩
  · exact .inl ⟨q + 1, rfl, Nat.succ_ne_zero q, hhigh⟩
  · refine .inr ⟨rfl, ?_, hhigh⟩
    simpa [Classical.or_iff_not_imp_left] using hlow

theorem search_eq {i : RoundingInterval} {e start : ℤ} {count : ℕ} (h : (i.hit? e).isSome)
    (hle : e ≤ start) (hlt : start < e + count) :
    ∃ k e', i.search count start = ⟨k, e'⟩ ∧ i.hit? e' = some k := by
  induction count generalizing start with
  | zero => omega
  | succ count ih =>
    rw [search]
    cases hhit : i.hit? start with
    | some k => exact ⟨k, start, rfl, hhit⟩
    | none =>
      have hne : e ≠ start := by
        rintro rfl
        rw [hhit] at h
        cases h
      exact ih (by omega) (by push_cast at hlt; omega)

end RoundingInterval

namespace Scientific

/-- The number that a decimal is. -/
def value (s : Scientific) : ℚ := s.digits * 10 ^ s.exponent

/-- Zeros at the end are moved into the exponent. -/
theorem stripZeros_value (fuel : ℕ) {s : Scientific} (h : s.digits ≠ 0) :
    (s.stripZeros fuel).digits ≠ 0 ∧ (s.stripZeros fuel).value = s.value := by
  induction fuel generalizing s with
  | zero => exact ⟨h, rfl⟩
  | succ fuel ih =>
    rw [stripZeros]
    split
    · next hzero =>
      have hten : s.digits % 10 = 0 := by simpa [h] using hzero
      have hdigits : s.digits = 10 * (s.digits / 10) := by omega
      obtain ⟨hne, hvalue⟩ := ih (s := ⟨s.digits / 10, s.exponent + 1⟩) (by simp only; omega)
      refine ⟨hne, hvalue.trans ?_⟩
      simp only [value]
      rw [zpow_add_one₀ (by norm_num)]
      conv_rhs => rw [hdigits]
      push_cast
      ring
    · exact ⟨h, rfl⟩

end Scientific

namespace Double

open RoundingInterval (up down up_pos down_pos down_div_up)

variable {d : Double}

theorem holds_interval_iff (hd : d.isZero = false) {e : ℤ} {k : ℕ} :
    d.interval.Holds e k ↔ d.Within (k * 10 ^ e) := by
  unfold RoundingInterval.Holds
  rw [contains_iff hd (up_pos e), Nat.cast_mul, mul_div_assoc, down_div_up]

theorem floor_interval (d : Double) (e : ℤ) :
    (d.interval.floor e : ℚ) * 10 ^ e ≤ d.size ∧ d.size < (d.interval.floor e + 1) * 10 ^ e := by
  have hD := d.denominator_interval.1
  have hgrid : 0 < d.interval.denominator * down e := Nat.mul_pos hD (down_pos e)
  have hD' : (0 : ℚ) < d.interval.denominator := by exact_mod_cast hD
  have hup : (0 : ℚ) < up e := by exact_mod_cast up_pos e
  rw [← value_interval, ← down_div_up, mul_div_assoc', mul_div_assoc', div_le_div_iff₀ hup hD',
    div_lt_div_iff₀ hD' hup]
  have hle := Nat.div_mul_le_self (d.interval.value * up e) (d.interval.denominator * down e)
  have hlt := Nat.lt_mul_div_succ (d.interval.value * up e) hgrid
  constructor
  · norm_cast
    calc d.interval.floor e * down e * d.interval.denominator
        = d.interval.floor e * (d.interval.denominator * down e) := by ring
      _ ≤ d.interval.value * up e := hle
  · norm_cast
    calc d.interval.value * up e
        < d.interval.denominator * down e * (d.interval.floor e + 1) := hlt
      _ = (d.interval.floor e + 1) * down e * d.interval.denominator := by ring

/-- Where the powers of ten are fine enough, one of the two multiples next to
the value is nearer to it than the middles are. -/
theorem isSome_hit? (hd : d.isZero = false) {e : ℤ} (hle : (10 : ℚ) ^ e ≤ d.size)
    (hfine : (10 : ℚ) ^ e < d.below * d.unit / 2) : (d.interval.hit? e).isSome := by
  rcases d.interval.hit?_cases e with ⟨k, hk, -⟩ | ⟨-, hlower, hupper⟩
  · rw [hk]
    rfl
  · exfalso
    obtain ⟨hfloor, hceil⟩ := d.floor_interval e
    rw [holds_interval_iff hd] at hlower hupper
    push_cast at hupper
    generalize d.interval.floor e = q at hfloor hceil hlower hupper
    have hbelow : (d.below : ℚ) * d.unit ≤ 2 * d.unit :=
      mul_le_mul_of_nonneg_right (by exact_mod_cast d.below_le) d.unit_pos.le
    have hnext : ((q : ℚ) + 1) * 10 ^ e = q * 10 ^ e + 10 ^ e := by ring
    have hne : q ≠ 0 := by
      rintro rfl
      rw [hnext] at hceil
      simp only [Nat.cast_zero, zero_mul, zero_add] at hceil
      linarith
    have hunit := d.unit_pos
    rw [hnext] at hceil hupper
    rcases le_total (d.size - q * 10 ^ e) (10 ^ e / 2) with hnear | hfar
    · refine hlower.elim hne fun hout => hout (.inl ⟨?_, ?_⟩)
      · unfold lowEnd
        linarith
      · unfold highEnd
        linarith
    · refine hupper (.inl ⟨?_, ?_⟩)
      · unfold lowEnd
        linarith
      · unfold highEnd
        linarith

/-- Seventeen digits are enough. -/
theorem significand_fine (d : Double) : 2 * d.significand < d.below * 10 ^ 16 := by
  have hlt := d.significand_lt
  rcases Nat.lt_or_ge 1 d.below with htwo | hone
  · have hlimit : 2 * (2 * fractions) ≤ 2 * 10 ^ 16 := by decide
    calc 2 * d.significand < 2 * 10 ^ 16 := by omega
      _ ≤ d.below * 10 ^ 16 := Nat.mul_le_mul_right _ htwo
  · have hbelow : d.below = 1 := Nat.le_antisymm hone d.below_pos
    rw [significand_of_below hbelow, hbelow]
    decide

/-- The search begins with a power of ten that is no larger than the double. -/
theorem zpow_start_le (hd : d.isZero = false) :
    (10 : ℚ) ^ leadingExponent d.interval.value d.interval.denominator ≤ d.size := by
  obtain ⟨hD, hsmall⟩ := d.denominator_interval
  have hvalue : 0 < d.interval.value := by
    refine Nat.pos_of_ne_zero fun hzero => ?_
    have hsize := size_pos hd
    rw [← value_interval, hzero] at hsize
    simp at hsize
  have hfirst := zpow_leadingExponent_le hvalue hD hsmall
  rwa [value_interval] at hfirst

/-- Sixteen powers further down it is fine enough. -/
theorem zpow_fine {start : ℤ} (h : (10 : ℚ) ^ start ≤ d.size) :
    (10 : ℚ) ^ (start - 16) < d.below * d.unit / 2 := by
  have hlast : (10 : ℚ) ^ (start - 16) = 10 ^ start / 10 ^ 16 := by
    rw [zpow_sub₀ (by norm_num)]
    rfl
  have hm : 2 * (d.significand : ℚ) < d.below * 10 ^ 16 := by exact_mod_cast d.significand_fine
  rw [hlast, div_lt_iff₀ (by positivity)]
  calc (10 : ℚ) ^ start ≤ d.significand * d.unit := by rwa [← size_eq]
    _ = 2 * d.significand * (d.unit / 2) := by ring
    _ < d.below * 10 ^ 16 * (d.unit / 2) := mul_lt_mul_of_pos_right hm (half_pos d.unit_pos)
    _ = d.below * d.unit / 2 * 10 ^ 16 := by ring

/-- A hit rounds to the double. -/
theorem within_of_hit? (hd : d.isZero = false) {e : ℤ} {k : ℕ} (h : d.interval.hit? e = some k) :
    k ≠ 0 ∧ d.Within (k * 10 ^ e) := by
  rcases d.interval.hit?_cases e with ⟨k', hk', hne, hholds⟩ | ⟨hnone, -⟩
  · obtain rfl : k = k' := Option.some.inj (h.symm.trans hk')
    exact ⟨hne, (holds_interval_iff hd).mp hholds⟩
  · rw [hnone] at h
    cases h

/-- **The decimal that is found rounds to the double.** -/
theorem shortest_within (hd : d.isZero = false) :
    d.shortest.digits ≠ 0 ∧ d.Within d.shortest.value := by
  have hstart := zpow_start_le hd
  unfold shortest
  simp only
  generalize leadingExponent d.interval.value d.interval.denominator = start at hstart ⊢
  have hle : (10 : ℚ) ^ (start - 16) ≤ d.size :=
    (zpow_le_zpow_right₀ (by norm_num) (by omega)).trans hstart
  have hthere : start - 16 ≤ start ∧ start < start - 16 + (17 : ℕ) := by omega
  obtain ⟨k, e, hsearch, hhit⟩ :=
    RoundingInterval.search_eq (isSome_hit? hd hle (zpow_fine hstart)) hthere.1 hthere.2
  obtain ⟨hne, hwithin⟩ := within_of_hit? hd hhit
  obtain ⟨hdigits, hvalue⟩ := Scientific.stripZeros_value 20 (s := ⟨k, e⟩) hne
  rw [hsearch]
  exact ⟨hdigits, hvalue ▸ hwithin⟩

end Double

end Runwatch
