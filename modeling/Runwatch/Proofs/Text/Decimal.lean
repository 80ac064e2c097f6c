/-
Runwatch.Proofs.Text.Decimal — numbers written in digits.

`Writes width n cs` says that `cs` are `width` digits and that they write
`n`. Of two numbers written in equally many digits the smaller one has the
smaller text, so that a text in fixed fields is ordered as the numbers in
its fields are.

  §1 Runs of digits — their value, read from the left.
  §2 Decimals — `decimalChars` gives the digits of a number to base ten.
  §3 Fields — `padded` writes a number in a field of its width.
  §4 Order — the texts of a field are ordered as the numbers are.
-/
import Mathlib.Tactic.IntervalCases
import Mathlib.Tactic.Ring
import Runwatch.Text.Decimal

namespace Runwatch.Text

/-! ## §1 Runs of digits -/

theorem isDigit_iff {c : Char} : isDigit c = true ↔ 48 ≤ c.toNat ∧ c.toNat ≤ 57 := by
  simp only [isDigit, Bool.and_eq_true, decide_eq_true_eq, Char.le_def, UInt32.le_iff_toNat_le]
  exact Iff.rfl

theorem digitValue_lt {c : Char} (h : isDigit c = true) : digitValue c < 10 := by
  rw [isDigit_iff] at h
  rw [digitValue]
  omega

@[simp] theorem natOfDigits_nil (acc : Nat) : natOfDigits acc [] = acc := rfl

@[simp] theorem natOfDigits_cons (acc : Nat) (c : Char) (cs : List Char) :
    natOfDigits acc (c :: cs) = natOfDigits (10 * acc + digitValue c) cs := by
  conv_lhs => unfold natOfDigits

theorem natOfDigits_append (acc : Nat) (us vs : List Char) :
    natOfDigits acc (us ++ vs) = natOfDigits (natOfDigits acc us) vs := by
  induction us generalizing acc with
  | nil => rfl
  | cons c us ih => exact ih _

/-- What stands in front of a run weighs as much as the run is long. -/
theorem natOfDigits_eq (acc : Nat) (cs : List Char) :
    natOfDigits acc cs = acc * 10 ^ cs.length + natOfDigits 0 cs := by
  induction cs generalizing acc with
  | nil => simp
  | cons c cs ih =>
    rw [natOfDigits_cons, natOfDigits_cons, ih, ih (10 * 0 + _), List.length_cons, Nat.pow_succ]
    ring

theorem natOfDigits_lt {cs : List Char} (h : ∀ c ∈ cs, isDigit c = true) :
    natOfDigits 0 cs < 10 ^ cs.length := by
  induction cs with
  | nil => simp
  | cons c cs ih =>
    have hc := digitValue_lt (h c List.mem_cons_self)
    have hcs := ih fun d hd => h d (List.mem_cons_of_mem c hd)
    rw [natOfDigits_cons, natOfDigits_eq, List.length_cons, Nat.pow_succ]
    calc (10 * 0 + digitValue c) * 10 ^ cs.length + natOfDigits 0 cs
        < (10 * 0 + digitValue c) * 10 ^ cs.length + 10 ^ cs.length := by omega
      _ = (digitValue c + 1) * 10 ^ cs.length := by ring
      _ ≤ 10 * 10 ^ cs.length := Nat.mul_le_mul_right _ hc
      _ = 10 ^ cs.length * 10 := Nat.mul_comm ..

/-- Zeros behind a number multiply it. -/
theorem natOfDigits_zeros (acc count : Nat) :
    natOfDigits acc (List.replicate count '0') = acc * 10 ^ count := by
  induction count generalizing acc with
  | zero => simp
  | succ count ih =>
    rw [List.replicate_succ, natOfDigits_cons, ih, Nat.pow_succ]
    have hzero : digitValue '0' = 0 := rfl
    rw [hzero]
    ring

/-! ## §2 Decimals -/

theorem digitChar_eq {d : Nat} (h : d < 10) : Char.ofNat (48 + d) = Nat.digitChar d := by
  interval_cases d <;> rfl

theorem decimalOnto_eq {fuel n : Nat} (h : n < fuel) (rest : List Char) :
    decimalOnto fuel n rest = Nat.toDigits 10 n ++ rest := by
  induction fuel generalizing n rest with
  | zero => omega
  | succ fuel ih =>
    rw [decimalOnto]
    by_cases hn : n < 10
    · rw [if_pos hn, Nat.mod_eq_of_lt hn, digitChar_eq hn, Nat.toDigits_of_lt_base hn]
      rfl
    · rw [if_neg hn, ih (by omega), digitChar_eq (Nat.mod_lt n (by decide)),
        Nat.toDigits_of_base_le (by decide) (Nat.le_of_not_lt hn), List.append_assoc]
      rfl

theorem decimalChars_eq (n : Nat) : decimalChars n = Nat.toDigits 10 n := by
  rw [decimalChars, decimalOnto_eq (Nat.lt_succ_self n), List.append_nil]

theorem decimalChars_ne_nil (n : Nat) : decimalChars n ≠ [] := by
  rw [decimalChars_eq]
  exact Nat.toDigits_ne_nil

theorem length_decimalChars_le {width n : Nat} (hw : 0 < width) :
    (decimalChars n).length ≤ width ↔ n < 10 ^ width := by
  rw [decimalChars_eq]
  exact Nat.length_toDigits_le_iff (by decide) hw

theorem isDigit_of_mem_decimalChars {n : Nat} {c : Char} (hc : c ∈ decimalChars n) :
    isDigit c = true := by
  rw [decimalChars_eq] at hc
  have hdigit := Nat.isDigit_of_mem_toDigits (by decide) (by decide) hc
  simpa [isDigit, Char.isDigit, Char.le_def] using hdigit

theorem digitValue_digitChar {d : Nat} (h : d < 10) : digitValue (Nat.digitChar d) = d := by
  interval_cases d <;> rfl

theorem natOfDigits_decimalChars (n : Nat) : natOfDigits 0 (decimalChars n) = n := by
  rw [decimalChars_eq]
  induction n using Nat.strong_induction_on with
  | _ n ih =>
    by_cases hn : n < 10
    · rw [Nat.toDigits_of_lt_base hn, natOfDigits_cons, digitValue_digitChar hn]
      simp
    · rw [Nat.toDigits_of_base_le (by decide) (Nat.le_of_not_lt hn), natOfDigits_append,
        ih (n / 10) (by omega), natOfDigits_cons, digitValue_digitChar (Nat.mod_lt n (by decide))]
      exact Nat.div_add_mod n 10

/-- No zero stands in front of other digits. -/
theorem decimalChars_ne_zero_cons (n : Nat) (d : Char) (ds : List Char) :
    decimalChars n ≠ '0' :: d :: ds := by
  intro h
  have hvalue := natOfDigits_decimalChars n
  have hdigits : ∀ c ∈ d :: ds, isDigit c = true := fun c hc =>
    isDigit_of_mem_decimalChars (n := n) (by rw [h]; exact List.mem_cons_of_mem _ hc)
  have hsmall : n < 10 ^ (d :: ds).length := by
    rw [← hvalue, h]
    exact natOfDigits_lt hdigits
  have hlength := (length_decimalChars_le (Nat.succ_pos ds.length)).mpr hsmall
  rw [h] at hlength
  simp at hlength

/-- Only zero begins with a zero. -/
theorem decimalChars_ne_zero {n : Nat} (hn : n ≠ 0) (rest : List Char) :
    decimalChars n ≠ '0' :: rest := by
  intro h
  cases rest with
  | nil =>
    have hvalue := natOfDigits_decimalChars n
    rw [h] at hvalue
    exact hn hvalue.symm
  | cons c rest => exact decimalChars_ne_zero_cons n c rest h

/-! ## §3 Fields -/

/-- A field of digits that writes a number. -/
structure Writes (width n : Nat) (cs : List Char) : Prop where
  length : cs.length = width
  digits : ∀ c ∈ cs, isDigit c = true
  value : natOfDigits 0 cs = n

theorem writes_padded {width n : Nat} (hw : 0 < width) (hn : n < 10 ^ width) :
    Writes width n (padded width n).toList := by
  have hfits := (length_decimalChars_le hw).mpr hn
  rw [padded, String.toList_ofList]
  refine ⟨?_, ?_, ?_⟩
  · rw [List.length_append, List.length_replicate]
    omega
  · intro c hc
    cases List.mem_append.mp hc with
    | inl hc =>
      rw [(List.mem_replicate.mp hc).2]
      rfl
    | inr hc => exact isDigit_of_mem_decimalChars hc
  · rw [natOfDigits_append, natOfDigits_zeros, Nat.zero_mul, natOfDigits_decimalChars]

/-- A field of digits is read as the word that it writes. -/
theorem Writes.word64? {width : Nat} {n : UInt64} {cs : List Char}
    (h : Writes (width + 1) n.toNat cs) : word64? cs = some n := by
  obtain ⟨hlen, hdigits, hvalue⟩ := h
  cases cs with
  | nil => simp at hlen
  | cons c cs =>
    have hread : natOfDigits? (c :: cs) = some n.toNat := by
      have hall : (c :: cs).all isDigit = true := List.all_eq_true.mpr hdigits
      rw [natOfDigits?, hall, hvalue]
      rfl
    have hfits : n.toNat < UInt64.size := n.toNat_lt
    -- A plus sign is looked for first.
    have hplus : ∀ rest, c :: cs ≠ '+' :: rest := by
      intro rest heq
      have hc := hdigits c List.mem_cons_self
      rw [(List.cons.inj heq).1] at hc
      exact absurd hc (by decide)
    simp [Text.word64?, hread, hfits]

/-- Zeros behind a field. -/
theorem Writes.zeros {width n : Nat} {cs : List Char} (h : Writes width n cs) (count : Nat) :
    Writes (width + count) (n * 10 ^ count) (cs ++ List.replicate count '0') := by
  refine ⟨by simp [h.length], ?_, ?_⟩
  · intro c hc
    cases List.mem_append.mp hc with
    | inl hc => exact h.digits c hc
    | inr hc =>
      rw [(List.mem_replicate.mp hc).2]
      rfl
  · rw [natOfDigits_append, h.value, natOfDigits_zeros]

/-- The digits of a field of two. -/
theorem Writes.pair {n : Nat} {cs : List Char} (h : Writes 2 n cs) :
    ∃ a b, cs = [a, b] ∧ isDigit a = true ∧ isDigit b = true ∧
      10 * digitValue a + digitValue b = n := by
  obtain ⟨a, b, rfl⟩ : ∃ a b, cs = [a, b] := by
    match cs, h.length with
    | [a, b], _ => exact ⟨a, b, rfl⟩
  refine ⟨a, b, rfl, h.digits a (by simp), h.digits b (by simp), ?_⟩
  rw [← h.value, natOfDigits_cons, natOfDigits_cons, natOfDigits_nil, Nat.mul_zero, Nat.zero_add]

/-- The digits of a field of four. -/
theorem Writes.quad {n : Nat} {cs : List Char} (h : Writes 4 n cs) :
    ∃ a b c d, cs = [a, b, c, d] ∧ isDigit a = true ∧ isDigit b = true ∧ isDigit c = true ∧
      isDigit d = true ∧
      100 * (10 * digitValue a + digitValue b) + (10 * digitValue c + digitValue d) = n := by
  obtain ⟨a, b, c, d, rfl⟩ : ∃ a b c d, cs = [a, b, c, d] := by
    match cs, h.length with
    | [a, b, c, d], _ => exact ⟨a, b, c, d, rfl⟩
  refine ⟨a, b, c, d, rfl, h.digits a (by simp), h.digits b (by simp), h.digits c (by simp),
    h.digits d (by simp), ?_⟩
  rw [← h.value]
  simp only [natOfDigits_cons, natOfDigits_nil]
  omega

/-! ## §4 Order -/

theorem lt_of_digitValue_lt {c d : Char} (hd : isDigit d = true)
    (h : digitValue c < digitValue d) : c < d := by
  rw [isDigit_iff] at hd
  rw [digitValue, digitValue] at h
  rw [Char.lt_def, UInt32.lt_iff_toNat_lt]
  have hc : c.val.toNat = c.toNat := rfl
  have hd : d.val.toNat = d.toNat := rfl
  omega

theorem eq_of_digitValue_eq {c d : Char} (hc : isDigit c = true) (hd : isDigit d = true)
    (h : digitValue c = digitValue d) : c = d := by
  rw [isDigit_iff] at hc hd
  rw [digitValue, digitValue] at h
  exact Char.toNat_inj.mp (by omega)

/-- Of two runs of equally many digits the one with the smaller value comes
first. -/
theorem lt_of_natOfDigits_lt {us vs : List Char} (hlen : us.length = vs.length)
    (hu : ∀ c ∈ us, isDigit c = true) (hv : ∀ c ∈ vs, isDigit c = true)
    (h : natOfDigits 0 us < natOfDigits 0 vs) : us < vs := by
  induction us generalizing vs with
  | nil =>
    obtain rfl : vs = [] := List.length_eq_zero_iff.mp hlen.symm
    exact absurd h (Nat.lt_irrefl _)
  | cons c us ih =>
    obtain ⟨d, vs, rfl⟩ := List.exists_cons_of_length_eq_add_one hlen.symm
    have hc := hu c List.mem_cons_self
    have hd := hv d List.mem_cons_self
    have hus := natOfDigits_lt fun e he => hu e (List.mem_cons_of_mem c he)
    have hvs := natOfDigits_lt fun e he => hv e (List.mem_cons_of_mem d he)
    have hlen : us.length = vs.length := Nat.succ.inj hlen
    rw [natOfDigits_cons, natOfDigits_cons, natOfDigits_eq, natOfDigits_eq (_ + digitValue d),
      hlen] at h
    rw [hlen] at hus
    rcases Nat.lt_trichotomy (digitValue c) (digitValue d) with hlt | heq | hgt
    · exact List.cons_lt_cons_iff.mpr (.inl (lt_of_digitValue_lt hd hlt))
    · refine List.cons_lt_cons_iff.mpr (.inr ⟨eq_of_digitValue_eq hc hd heq, ?_⟩)
      refine ih hlen (fun e he => hu e (List.mem_cons_of_mem c he))
        (fun e he => hv e (List.mem_cons_of_mem d he)) ?_
      rw [heq] at h
      omega
    · have hweight : (digitValue d + 1) * 10 ^ vs.length ≤ digitValue c * 10 ^ vs.length :=
        Nat.mul_le_mul_right _ hgt
      rw [Nat.add_mul, Nat.one_mul] at hweight
      simp only [Nat.mul_zero, Nat.zero_add] at h
      omega

theorem Writes.lt {width m n : Nat} {us vs : List Char} (hu : Writes width m us)
    (hv : Writes width n vs) (h : m < n) : us < vs :=
  lt_of_natOfDigits_lt (hu.length.trans hv.length.symm) hu.digits hv.digits
    (by rw [hu.value, hv.value]; exact h)

/-- What stands behind two runs of one length does not matter if they differ. -/
theorem append_lt_append {us vs : List Char} (hlen : us.length = vs.length) (h : us < vs)
    (xs ys : List Char) : us ++ xs < vs ++ ys := by
  induction us generalizing vs with
  | nil =>
    obtain rfl : vs = [] := List.length_eq_zero_iff.mp hlen.symm
    exact absurd h (List.lt_irrefl [])
  | cons c us ih =>
    obtain ⟨d, vs, rfl⟩ := List.exists_cons_of_length_eq_add_one hlen.symm
    refine List.cons_lt_cons_iff.mpr ?_
    cases List.cons_lt_cons_iff.mp h with
    | inl hlt => exact .inl hlt
    | inr heq => exact .inr ⟨heq.1, ih (Nat.succ.inj hlen) heq.2⟩

/-- Two fields, and then what stands behind them, are compared in turn. -/
theorem padded_append_lt {width m n : Nat} (hw : 0 < width) (hm : m < 10 ^ width)
    (hn : n < 10 ^ width) {xs ys : List Char} (h : m < n ∨ m = n ∧ xs < ys) :
    (padded width m).toList ++ xs < (padded width n).toList ++ ys := by
  have hm := writes_padded hw hm
  have hn := writes_padded hw hn
  cases h with
  | inl hlt => exact append_lt_append (hm.length.trans hn.length.symm) (hm.lt hn hlt) xs ys
  | inr heq =>
    rw [heq.1]
    exact List.append_left_lt heq.2

/-- No digits come before as many zeros. -/
theorem not_lt_zeros {us : List Char} (hu : ∀ c ∈ us, isDigit c = true) :
    ¬ us < List.replicate us.length '0' := by
  induction us with
  | nil => exact List.lt_irrefl []
  | cons c us ih =>
    intro h
    cases List.cons_lt_cons_iff.mp h with
    | inl hlt =>
      have hc := isDigit_iff.mp (hu c List.mem_cons_self)
      have hlt : c.toNat < 48 := hlt
      omega
    | inr heq => exact ih (fun d hd => hu d (List.mem_cons_of_mem c hd)) heq.2

/-- Two runs of digits without the zeros behind them, each followed by a sign
that comes before the digits, are ordered as they are with their zeros. -/
theorem lt_of_zeros_lt {sign : Char} (hsign : ∀ c, isDigit c = true → sign < c)
    {us vs : List Char} {j k : Nat} (hu : ∀ c ∈ us, isDigit c = true)
    (hv : ∀ c ∈ vs, isDigit c = true) (hlen : us.length + j = vs.length + k)
    (h : us ++ List.replicate j '0' < vs ++ List.replicate k '0') (xs : List Char) :
    us ++ sign :: xs < vs ++ sign :: xs := by
  induction us generalizing vs with
  | nil =>
    cases vs with
    | nil =>
      obtain rfl : j = k := by simpa using hlen
      exact absurd h (List.lt_irrefl _)
    | cons d vs => exact List.cons_lt_cons_iff.mpr (.inl (hsign d (hv d List.mem_cons_self)))
  | cons c us ih =>
    cases vs with
    | nil =>
      -- the first run would come before zeros alone
      have hdigits : ∀ d ∈ (c :: us) ++ List.replicate j '0', isDigit d = true := by
        intro d hd
        cases List.mem_append.mp hd with
        | inl hd => exact hu d hd
        | inr hd =>
          rw [(List.mem_replicate.mp hd).2]
          rfl
      have hnot := not_lt_zeros hdigits
      rw [List.length_append, List.length_replicate, hlen, List.length_nil, Nat.zero_add] at hnot
      exact absurd h hnot
    | cons d vs =>
      refine List.cons_lt_cons_iff.mpr ?_
      cases List.cons_lt_cons_iff.mp h with
      | inl hlt => exact .inl hlt
      | inr heq =>
        refine .inr ⟨heq.1, ih (fun e he => hu e (List.mem_cons_of_mem c he))
          (fun e he => hv e (List.mem_cons_of_mem d he)) ?_ heq.2⟩
        simpa [Nat.add_right_comm] using hlen

end Runwatch.Text
