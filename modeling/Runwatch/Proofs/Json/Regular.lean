/-
Runwatch.Proofs.Json.Regular — what the reader gives.

A value that is read has its members in order, and its doubles are finite: a
number beyond the range of a double is refused, not rounded to an infinity.

  §1 Doubles — what is rounded or turned round stays finite.
  §2 Numbers — every way to read a number.
  §3 Values  — `regular_values`, by induction on the reader's fuel.

The main statement is `regular_of_parseBytes?`.
-/
import Runwatch.Json.Reader
import Runwatch.Proofs.Json.Records

namespace Runwatch.Double

/-! ## §1 Doubles -/

theorem isFinite_ofNat {bits : Nat} (h : bits < 2047 * fractions) :
    (Double.mk (UInt64.ofNat bits)).isFinite = true := by
  have hword : bits < UInt64.size := Nat.lt_trans h (by decide)
  have hfield : bits / fractions < 2047 := Nat.div_lt_of_lt_mul (Nat.mul_comm .. ▸ h)
  unfold isFinite exponentField
  rw [UInt64.toNat_ofNat_of_lt' hword, Nat.mod_eq_of_lt (Nat.lt_trans hfield (by decide))]
  exact bne_iff_ne.mpr (Nat.ne_of_lt hfield)

theorem isFinite_zero : zero.isFinite = true := isFinite_ofNat (by decide)

theorem isFinite_of_ofRatio? {num den : Nat} {d : Double} (h : ofRatio? num den = some d) :
    d.isFinite = true := by
  unfold ofRatio? at h
  split at h
  · obtain rfl := Option.some.inj h
    exact isFinite_zero
  · simp only at h
    split at h
    · next hsmall =>
      obtain rfl := Option.some.inj h
      exact isFinite_ofNat (Nat.lt_trans hsmall (by decide))
    · split at h
      · next hrange =>
        obtain rfl := Option.some.inj h
        exact isFinite_ofNat hrange
      · cases h

theorem isFinite_of_mul? {a b d : Double} (h : a.mul? b = some d) : d.isFinite = true :=
  isFinite_of_ofRatio? h

theorem isFinite_of_div? {a b d : Double} (h : a.div? b = some d) : d.isFinite = true :=
  isFinite_of_ofRatio? h

/-- The sign is no part of the exponent. -/
theorem exponentField_neg (d : Double) : d.neg.exponentField = d.exponentField := by
  unfold exponentField neg
  rw [UInt64.toNat_xor]
  show (d.bits.toNat ^^^ 2 ^ 63) / 2 ^ 52 % 2 ^ 11 = d.bits.toNat / 2 ^ 52 % 2 ^ 11
  have hsign : 2 ^ 63 / 2 ^ 52 % 2 ^ 11 = 0 := by decide
  rw [Nat.xor_div_two_pow, Nat.xor_mod_two_pow, hsign, Nat.xor_zero]

theorem isFinite_neg {d : Double} (h : d.isFinite = true) : d.neg.isFinite = true := by
  rw [isFinite, exponentField_neg]
  exact h

end Runwatch.Double

namespace Runwatch.Json

/-! ## §2 Numbers -/

/-- Neither an infinity nor a NaN. -/
def Number.IsFinite : Number → Prop
  | .natural _ => True
  | .negative _ => True
  | .double d => d.isFinite = true

theorem isFinite_of_scaleDouble? {fuel : Nat} {d d' : Double} {exponent : Int}
    (hd : d.isFinite = true) (h : scaleDouble? fuel d exponent = some d') :
    d'.isFinite = true := by
  fun_induction scaleDouble? fuel d exponent with
  | case1 =>
    obtain rfl := Option.some.inj h
    exact hd
  | case2 => exact Double.isFinite_of_mul? h
  | case3 => exact Double.isFinite_of_div? h
  | case4 =>
    obtain rfl := Option.some.inj h
    exact hd
  | case5 => cases h
  | case6 fuel d exponent _ _ _ quotient hquotient ih =>
    exact ih (Double.isFinite_of_div? hquotient) h
  | case7 => cases h

theorem isFinite_of_assembleDouble? {negative : Bool} {significand : Nat} {exponent : Int}
    {d : Double} (h : assembleDouble? negative significand exponent = some d) :
    d.isFinite = true := by
  obtain ⟨whole, hwhole, h⟩ := Option.bind_eq_some_iff.mp h
  obtain ⟨scaled, hscaled, h⟩ := Option.bind_eq_some_iff.mp h
  have hfinite := isFinite_of_scaleDouble? (Double.isFinite_of_ofRatio? hwhole) hscaled
  obtain rfl := Option.some.inj h
  split
  · exact Double.isFinite_neg hfinite
  · exact hfinite

/-- A double that was assembled, with the rest behind it. -/
theorem isFinite_of_assembled {negative : Bool} {significand : Nat} {exponent : Int}
    {cs rest : List Char} {n : Number}
    (h : (assembleDouble? negative significand exponent).map (fun d => (Number.double d, cs)) =
      some (n, rest)) : n.IsFinite := by
  obtain ⟨d, hd, heq⟩ := Option.map_eq_some_iff.mp h
  obtain ⟨rfl, -⟩ := Prod.mk.inj heq
  exact isFinite_of_assembleDouble? hd

theorem isFinite_of_readExponent {negative : Bool} {significand : Nat} {start : Int}
    {cs rest : List Char} {n : Number}
    (h : readExponent negative significand start cs = some (n, rest)) : n.IsFinite := by
  unfold readExponent at h
  split at h
  dsimp only at h
  split at h
  · cases h
  · split at h
    · split at h
      · cases h
      · obtain ⟨rfl, -⟩ := Prod.mk.inj (Option.some.inj h)
        show (if negative then Double.zero.neg else Double.zero).isFinite = true
        split
        · exact Double.isFinite_neg Double.isFinite_zero
        · exact Double.isFinite_zero
    · exact isFinite_of_assembled h

/-- The same where an exponent may follow. -/
theorem isFinite_of_exponent {negative : Bool} {significand : Nat} {exponent : Int}
    {cs rest : List Char} {n : Number}
    (h : (match cs with
      | 'e' :: cs => readExponent negative significand exponent cs
      | 'E' :: cs => readExponent negative significand exponent cs
      | _ => (assembleDouble? negative significand exponent).map fun d => (.double d, cs))
        = some (n, rest)) : n.IsFinite := by
  split at h
  · exact isFinite_of_readExponent h
  · exact isFinite_of_readExponent h
  · exact isFinite_of_assembled h

theorem isFinite_of_readFraction {negative : Bool} {significand : Nat} {start : Int}
    {cs rest : List Char} {n : Number}
    (h : readFraction negative significand start cs = some (n, rest)) : n.IsFinite := by
  unfold readFraction at h
  by_cases hpoint : (cs.head? == some '.') = true
  · simp only [hpoint, Bool.true_and, if_true] at h
    split at h
    · cases h
    · exact isFinite_of_exponent h
  · simp only [hpoint, Bool.false_and, if_false, Bool.false_eq_true] at h
    exact isFinite_of_exponent h

theorem isFinite_of_wholeNumber? {negative : Bool} {m : Nat} {n : Number}
    (h : wholeNumber? negative m = some n) : n.IsFinite := by
  unfold wholeNumber? at h
  split at h
  · split at h
    · obtain rfl := Option.some.inj h
      trivial
    · obtain ⟨d, hd, rfl⟩ := Option.map_eq_some_iff.mp h
      exact Double.isFinite_neg (Double.isFinite_of_ofRatio? hd)
  · obtain rfl := Option.some.inj h
    trivial

theorem isFinite_of_readUnsigned {negative : Bool} {cs rest : List Char} {n : Number}
    (h : readUnsigned negative cs = some (n, rest)) : n.IsFinite := by
  unfold readUnsigned at h
  dsimp only at h
  split at h
  · cases h
  · cases h
  · split at h
    all_goals
      split at h
      · obtain ⟨m, hm, heq⟩ := Option.map_eq_some_iff.mp h
        obtain ⟨rfl, -⟩ := Prod.mk.inj heq
        exact isFinite_of_wholeNumber? hm
      · exact isFinite_of_readFraction h

theorem isFinite_of_readNumber {cs rest : List Char} {n : Number}
    (h : readNumber cs = some (n, rest)) : n.IsFinite := by
  unfold readNumber at h
  split at h <;> exact isFinite_of_readUnsigned h

/-! ## §3 Values -/

/-- A value with the members of its objects in order and with finite doubles. -/
inductive Regular : Value → Prop where
  | null : Regular .null
  | bool (b : Bool) : Regular (.bool b)
  | number {n : Number} (finite : n.IsFinite) : Regular (.number n)
  | string (s : String) : Regular (.string s)
  | array {vs : List Value} (elements : ∀ v ∈ vs, Regular v) : Regular (.array vs)
  | object {ms : Members} (inOrder : ms.Pairwise fun m m' => m.1 < m'.1)
      (members : ∀ m ∈ ms, Regular m.2) : Regular (.object ms)

theorem Regular.inOrder {v : Value} (h : Regular v) : InOrder v := by
  induction h with
  | null => exact .null
  | bool b => exact .bool b
  | number _ => exact .number _
  | string s => exact .string s
  | array _ ih => exact .array ih
  | object inOrder _ ih => exact .object inOrder ih

theorem regular_insert {name : String} {v : Value} {ms : Members} (hv : Regular v)
    (hms : ∀ m ∈ ms, Regular m.2) : ∀ m ∈ Members.insert name v ms, Regular m.2 := by
  intro m hm
  rcases Members.mem_of_mem_insert hm with rfl | hm
  · exact hv
  · exact hms m hm

/-- What is read as a value is regular. -/
def ValuesRegular (fuel : Nat) : Prop :=
  ∀ depth cs v rest, readValue fuel depth cs = some (v, rest) → Regular v

/-- So is what is read as elements, if those already read are. -/
def ElementsRegular (fuel : Nat) : Prop :=
  ∀ depth done cs v rest, (∀ w ∈ done, Regular w) →
    readElements fuel depth done cs = some (v, rest) → Regular v

/-- So is what is read as members. -/
def MembersRegular (fuel : Nat) : Prop :=
  ∀ depth (done : Members) cs v rest, Regular (.object done) →
    readMembers fuel depth done cs = some (v, rest) → Regular v

theorem ValuesRegular.succ {fuel : Nat} (he : ElementsRegular fuel) (hm : MembersRegular fuel) :
    ValuesRegular (fuel + 1) := by
  intro depth cs v rest h
  unfold readValue at h
  split at h
  · obtain ⟨rfl, -⟩ := Prod.mk.inj (Option.some.inj h)
    exact .null
  · obtain ⟨rfl, -⟩ := Prod.mk.inj (Option.some.inj h)
    exact .bool true
  · obtain ⟨rfl, -⟩ := Prod.mk.inj (Option.some.inj h)
    exact .bool false
  · obtain ⟨⟨text, _⟩, -, hv⟩ := Option.map_eq_some_iff.mp h
    obtain ⟨rfl, -⟩ := Prod.mk.inj hv
    exact .string text
  · split at h
    · cases h
    · split at h
      · obtain ⟨rfl, -⟩ := Prod.mk.inj (Option.some.inj h)
        exact .array nofun
      · exact he _ [] _ _ _ nofun h
  · split at h
    · cases h
    · split at h
      · obtain ⟨rfl, -⟩ := Prod.mk.inj (Option.some.inj h)
        exact .object .nil nofun
      · exact hm _ _ _ _ _ (.object .nil nofun) h
  · obtain ⟨⟨n, _⟩, hn, hv⟩ := Option.map_eq_some_iff.mp h
    obtain ⟨rfl, -⟩ := Prod.mk.inj hv
    exact .number (isFinite_of_readNumber hn)

theorem ElementsRegular.succ {fuel : Nat} (hv : ValuesRegular fuel) (he : ElementsRegular fuel) :
    ElementsRegular (fuel + 1) := by
  intro depth done cs v rest hdone h
  unfold readElements at h
  split at h
  · cases h
  · next w behind hread =>
    have hall : ∀ u ∈ w :: done, Regular u :=
      List.forall_mem_cons.mpr ⟨hv _ _ _ _ hread, hdone⟩
    split at h
    · exact he _ _ _ _ _ hall h
    · obtain ⟨rfl, -⟩ := Prod.mk.inj (Option.some.inj h)
      exact .array fun u hu => hall u (List.mem_reverse.mp hu)
    · cases h

theorem MembersRegular.succ {fuel : Nat} (hv : ValuesRegular fuel) (hm : MembersRegular fuel) :
    MembersRegular (fuel + 1) := by
  intro depth done cs v rest hdone h
  unfold readMembers at h
  split at h
  · split at h
    · cases h
    · next name colon _ =>
      split at h
      · split at h
        · cases h
        · next w after hread =>
          cases hdone with
          | object inOrder members =>
            have hset : Regular (.object (Members.insert name w done)) :=
              .object (Members.pairwise_insert inOrder)
                (regular_insert (hv _ _ _ _ hread) members)
            dsimp only at h
            split at h
            · exact hm _ _ _ _ _ hset h
            · obtain ⟨rfl, -⟩ := Prod.mk.inj (Option.some.inj h)
              exact hset
            · cases h
      · cases h
  · cases h

/-- What is read is regular, by induction on the fuel of the reader: each of
its three functions calls the others with less. -/
theorem regular_values (fuel : Nat) :
    ValuesRegular fuel ∧ ElementsRegular fuel ∧ MembersRegular fuel := by
  induction fuel with
  | zero =>
    refine ⟨?_, ?_, ?_⟩
    · intro depth cs v rest h; simp [readValue] at h
    · intro depth done cs v rest _ h; simp [readElements] at h
    · intro depth done cs v rest _ h; simp [readMembers] at h
  | succ fuel ih =>
    obtain ⟨hv, he, hm⟩ := ih
    exact ⟨.succ he hm, .succ hv he, .succ hv hm⟩

/-- **What a byte string writes is regular.** -/
theorem regular_of_parseBytes? {bytes : List UInt8} {v : Value} (h : parseBytes? bytes = some v) :
    Regular v := by
  obtain ⟨cs, -, h⟩ := Option.bind_eq_some_iff.mp h
  unfold parseChars? at h
  split at h
  · next w rest hread =>
    split at h
    · obtain rfl := Option.some.inj h
      exact (regular_values _).1 _ _ _ _ hread
    · cases h
  · cases h

end Runwatch.Json
