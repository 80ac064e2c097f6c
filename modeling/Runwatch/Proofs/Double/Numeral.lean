/-
Runwatch.Proofs.Double.Numeral — the text of a double.

A numeral is a number as the grammar of JSON has it, and stands for a rational
number (`Numeral`). The text of a finite double is a sign and a numeral that is
rounded to the double, whether the point is spelled out or there is an exponent
(`exists_numeral`).

  §1 Numerals — the grammar.
  §2 Decimals — both ways to write a decimal are numerals.
  §3 Doubles  — the text of a double.
-/
import Runwatch.Proofs.Double.Nearest

namespace Runwatch

open Text (isDigit natOfDigits decimalChars)

/-! ## §1 Numerals -/

/-- A run of digits that is not empty. -/
def IsDigits (cs : List Char) : Prop := cs ≠ [] ∧ ∀ c ∈ cs, isDigit c = true

/-- What stands in front: digits, and no zero before the others. -/
structure IsWholePart (cs : List Char) : Prop where
  digits : IsDigits cs
  unpadded : ∀ c rest, cs ≠ '0' :: c :: rest

/-- What may stand behind the whole part: a point and digits. -/
inductive IsFraction : List Char → (digits : List Char) → Prop where
  | absent : IsFraction [] []
  | point {digits : List Char} (h : IsDigits digits) : IsFraction ('.' :: digits) digits

/-- What may stand at the end: the power of ten by which all is multiplied. -/
inductive IsExponent : List Char → ℤ → Prop where
  | absent : IsExponent [] 0
  | up {digits : List Char} (h : IsDigits digits) :
      IsExponent ('e' :: digits) (natOfDigits 0 digits)
  | down {digits : List Char} (h : IsDigits digits) :
      IsExponent ('e' :: '-' :: digits) (-natOfDigits 0 digits)

/-- A number without a sign in the grammar of JSON, and what it stands for. -/
inductive Numeral : List Char → ℚ → Prop where
  | mk {whole fraction digits exponent : List Char} {e : ℤ} (hwhole : IsWholePart whole)
      (hfraction : IsFraction fraction digits) (hexponent : IsExponent exponent e) :
      Numeral (whole ++ fraction ++ exponent)
        (natOfDigits 0 (whole ++ digits) * 10 ^ (e - digits.length))

/-! ## §2 Decimals -/

theorem isDigits_decimalChars (n : ℕ) : IsDigits (decimalChars n) :=
  ⟨Text.decimalChars_ne_nil n, fun _ => Text.isDigit_of_mem_decimalChars⟩

theorem isDigit_zeros {c : Char} {count : ℕ} (h : c ∈ List.replicate count '0') :
    isDigit c = true := by
  rw [(List.mem_replicate.mp h).2]
  rfl

theorem isDigits_singleton {c : Char} (h : isDigit c = true) : IsDigits [c] :=
  ⟨List.cons_ne_nil c [], List.forall_mem_singleton.mpr h⟩

theorem isWholePart_singleton {c : Char} (h : isDigit c = true) : IsWholePart [c] :=
  ⟨isDigits_singleton h, by simp⟩

theorem isWholePart_zero : IsWholePart ['0'] := isWholePart_singleton rfl

theorem isWholePart_decimalChars (n : ℕ) : IsWholePart (decimalChars n) :=
  ⟨isDigits_decimalChars n, Text.decimalChars_ne_zero_cons n⟩

namespace Scientific

variable {s : Scientific}

/-- All digits, and zeros behind them up to the point. -/
theorem numeral_above (hs : s.digits ≠ 0) {count : ℕ} (he : s.exponent = count) :
    Numeral (decimalChars s.digits ++ List.replicate count '0' ++ ['.', '0']) s.value := by
  have hwhole : IsDigits (decimalChars s.digits ++ List.replicate count '0') :=
    ⟨List.append_ne_nil_of_left_ne_nil (Text.decimalChars_ne_nil _) _, fun c hc =>
      (List.mem_append.mp hc).elim Text.isDigit_of_mem_decimalChars isDigit_zeros⟩
  have hzero : ∀ c rest, decimalChars s.digits ++ List.replicate count '0' ≠ '0' :: c :: rest := by
    intro c rest h
    obtain ⟨d, ds, hds⟩ := List.exists_cons_of_ne_nil (Text.decimalChars_ne_nil s.digits)
    rw [hds, List.cons_append] at h
    exact Text.decimalChars_ne_zero hs ds (hds.trans (by rw [(List.cons.inj h).1]))
  have hnumeral := Numeral.mk ⟨hwhole, hzero⟩ (.point isWholePart_zero.digits) .absent
  rw [List.append_nil] at hnumeral
  convert hnumeral using 1
  have hbehind : natOfDigits (s.digits * 10 ^ count) ['0'] = 10 * (s.digits * 10 ^ count) := rfl
  rw [Text.natOfDigits_append, Text.natOfDigits_append, Text.natOfDigits_decimalChars,
    Text.natOfDigits_zeros, hbehind, value, he, zpow_natCast]
  norm_num
  ring

/-- The point stands among the digits. -/
theorem numeral_among (hs : s.digits ≠ 0) {front behind : List Char}
    (hdigits : decimalChars s.digits = front ++ behind) (hfront : front ≠ []) (hbehind : behind ≠ [])
    (he : s.exponent = -behind.length) : Numeral (front ++ '.' :: behind) s.value := by
  have hall := (isDigits_decimalChars s.digits).2
  rw [hdigits] at hall
  have hzero : ∀ c rest, front ≠ '0' :: c :: rest := by
    rintro c rest rfl
    exact Text.decimalChars_ne_zero hs _ hdigits
  have hwhole : IsDigits front := ⟨hfront, fun c hc => hall c (List.mem_append_left _ hc)⟩
  have hfraction : IsDigits behind := ⟨hbehind, fun c hc => hall c (List.mem_append_right _ hc)⟩
  have hnumeral := Numeral.mk ⟨hwhole, hzero⟩ (.point hfraction) .absent
  rw [List.append_nil, ← hdigits, Text.natOfDigits_decimalChars, zero_sub, ← he] at hnumeral
  exact hnumeral

/-- Zeros stand between the point and the digits. -/
theorem numeral_below {count : ℕ}
    (he : s.exponent = -(count + (decimalChars s.digits).length : ℕ)) :
    Numeral ('0' :: '.' :: List.replicate count '0' ++ decimalChars s.digits) s.value := by
  have hbehind : IsDigits (List.replicate count '0' ++ decimalChars s.digits) :=
    ⟨List.append_ne_nil_of_right_ne_nil _ (Text.decimalChars_ne_nil _), fun c hc =>
      (List.mem_append.mp hc).elim isDigit_zeros Text.isDigit_of_mem_decimalChars⟩
  have hnumeral := Numeral.mk isWholePart_zero (.point hbehind) .absent
  have hvalue : natOfDigits 0 (['0'] ++ (List.replicate count '0' ++ decimalChars s.digits)) =
      s.digits := by
    have hzero : natOfDigits 0 ['0'] = 0 := rfl
    rw [Text.natOfDigits_append, hzero, Text.natOfDigits_append, Text.natOfDigits_zeros,
      Nat.zero_mul, Text.natOfDigits_decimalChars]
  rw [List.append_nil, hvalue, zero_sub, List.length_append, List.length_replicate, ← he]
    at hnumeral
  exact hnumeral

theorem numeral_positional (hs : s.digits ≠ 0) : Numeral s.positional s.value := by
  unfold positional
  simp only
  split
  · next h => exact numeral_above hs (Int.toNat_of_nonneg h).symm
  · next hneg =>
    split
    · next hpoint =>
      have hlength : ((decimalChars s.digits).length + s.exponent).toNat <
          (decimalChars s.digits).length := by omega
      refine numeral_among hs (List.take_append_drop _ _).symm ?_ ?_ ?_
      · simp only [ne_eq, List.take_eq_nil_iff, not_or]
        exact ⟨by omega, Text.decimalChars_ne_nil _⟩
      · simpa [List.drop_eq_nil_iff] using hlength
      · rw [List.length_drop]
        omega
    · next hpoint => exact numeral_below (by push_cast; omega)

theorem isExponent_signedDecimal (power : ℤ) :
    IsExponent ('e' :: (Text.signedDecimal power).toList) power := by
  have hdigits := isDigits_decimalChars power.natAbs
  have hvalue := Text.natOfDigits_decimalChars power.natAbs
  unfold Text.signedDecimal Text.decimal
  split
  · next h =>
    have hdown := IsExponent.down hdigits
    rw [hvalue, Int.ofNat_natAbs_of_nonpos h.le, neg_neg] at hdown
    rw [String.toList_append, String.toList_ofList (l := decimalChars _)]
    exact hdown
  · next h =>
    have hup := IsExponent.up hdigits
    rw [hvalue, Int.natAbs_of_nonneg (Int.not_lt.mp h)] at hup
    rw [String.toList_ofList]
    exact hup

theorem numeral_exponential (s : Scientific) : Numeral s.exponential s.value := by
  have hlength := List.length_pos_iff.mpr (Text.decimalChars_ne_nil s.digits)
  have hall := (isDigits_decimalChars s.digits).2
  have hvalue := Text.natOfDigits_decimalChars s.digits
  unfold exponential
  simp only
  generalize hpower : ((decimalChars s.digits).length : ℤ) + s.exponent - 1 = power
  have hexponent := isExponent_signedDecimal power
  cases hdigits : decimalChars s.digits with
  | nil => exact absurd hdigits (Text.decimalChars_ne_nil _)
  | cons d behind =>
    rw [hdigits] at hall hvalue hpower
    have hd := isWholePart_singleton (hall d List.mem_cons_self)
    have he : s.exponent = power - behind.length := by
      rw [List.length_cons] at hpower
      push_cast at hpower
      omega
    cases behind with
    | nil =>
      have hnumeral := Numeral.mk hd .absent hexponent
      rw [List.append_nil, hvalue, ← he] at hnumeral
      exact hnumeral
    | cons c behind =>
      have hnumeral := Numeral.mk hd
        (.point ⟨List.cons_ne_nil c behind, (List.forall_mem_cons.mp hall).2⟩) hexponent
      rw [List.singleton_append (l := c :: behind), hvalue, ← he] at hnumeral
      exact hnumeral

/-- Either form has a point or an exponent. -/
theorem marked_positional (s : Scientific) : '.' ∈ s.positional := by
  unfold positional
  simp only
  split
  · simp
  · split <;> simp

theorem marked_exponential (s : Scientific) : 'e' ∈ s.exponential := by
  simp [exponential]

end Scientific

/-! ## §3 Doubles -/

namespace Double

variable {d : Double}

theorem size_eq_zero (h : d.isZero = true) : d.size = 0 := by
  have hfields : d.exponentField = 0 ∧ d.fractionField = 0 := by simpa [isZero] using h
  simp [size_eq, significand, hfields]

/-- **The text of a finite double** is its sign and a numeral that rounds to
it, with a point or an exponent. -/
theorem exists_numeral (range : PointRange) (h : d.isFinite = true) :
    ∃ cs x, d.chars range = (if d.isNegative then ['-'] else []) ++ cs ∧ Numeral cs x ∧
      RoundsTo x d ∧ ('.' ∈ cs ∨ 'e' ∈ cs) := by
  unfold chars
  simp only [h, Bool.not_true, Bool.false_eq_true, if_false]
  split
  · next hzero =>
    refine ⟨['0', '.', '0'], 0, rfl, ?_, ?_, .inl (by simp)⟩
    · have hnumeral := Numeral.mk isWholePart_zero (.point isWholePart_zero.digits) .absent
      have hvalue : natOfDigits 0 (['0'] ++ ['0']) = 0 := rfl
      rw [hvalue, Nat.cast_zero, zero_mul] at hnumeral
      exact hnumeral
    · intro y _ hne
      rw [size_eq_zero hzero] at hne ⊢
      left
      simpa using hne
  · next hzero =>
    obtain ⟨hdigits, hwithin⟩ := shortest_within (Bool.not_eq_true _ ▸ hzero)
    refine ⟨_, d.shortest.value, rfl, ?_, hwithin.roundsTo, ?_⟩
    · split
      · exact Scientific.numeral_positional hdigits
      · exact Scientific.numeral_exponential _
    · split
      · exact .inl (Scientific.marked_positional _)
      · exact .inr (Scientific.marked_exponential _)

end Double

end Runwatch
