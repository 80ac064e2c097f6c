/-
Runwatch.Proofs.Text.Utf8 — the reader of UTF-8 reads what the writer writes.

`encode_of_decode?` says that bytes which decode are the encoding of what
they decode to, and `decode?_encode` that all characters come back from
their bytes. The reader builds each character from the bits of its bytes, so
the work is in four equations for either way, one for each length of a
character: writing the character gives the bytes back (`encodeChar_one` …
`encodeChar_four`), and reading the bytes gives the character
(`decodeOnto_one` … `decodeOnto_four`).
-/
import Runwatch.Text.Utf8

namespace Runwatch.Text.Utf8

/-! ## Numbers of characters -/

/-- Below the surrogates every number is a character's. -/
theorem toNat_ofNat_low {n : Nat} (h : n < 0xD800) : (Char.ofNat n).toNat = n := by
  rw [Char.ofNat, dif_pos (.inl h)]
  rfl

/-- Between the surrogates and the last code point, too. -/
theorem toNat_ofNat_high {n : Nat} (h₁ : 0xE000 ≤ n) (h₂ : n < 0x110000) :
    (Char.ofNat n).toNat = n := by
  rw [Char.ofNat, dif_pos (.inr ⟨by omega, h₂⟩)]
  rfl

/-! ## Writing back what was read -/

theorem isTail_iff {b : UInt8} : isTail b = true ↔ 0x80 ≤ b.toNat ∧ b.toNat ≤ 0xBF := by
  simp [isTail, UInt8.le_iff_toNat_le]

theorem ofNat_eq {n : Nat} {b : UInt8} (h : n = b.toNat) : UInt8.ofNat n = b := by
  rw [h, UInt8.ofNat_toNat]

theorem encodeChar_one {a : UInt8} (ha : a.toNat < 0x80) :
    encodeChar (Char.ofNat a.toNat) = [a] := by
  rw [encodeChar, toNat_ofNat_low (by omega), if_pos ha, UInt8.ofNat_toNat]

theorem encodeChar_two {a b : UInt8} (ha : 0xC2 ≤ a.toNat) (ha' : a.toNat < 0xE0)
    (hb : isTail b = true) :
    encodeChar (Char.ofNat ((a.toNat - 0xC0) * 64 + tailBits b)) = [a, b] := by
  rw [isTail_iff] at hb
  have hbits : tailBits b = b.toNat - 0x80 := by rw [tailBits]; omega
  rw [encodeChar, hbits, toNat_ofNat_low (by omega), if_neg (by omega), if_pos (by omega),
    ofNat_eq (b := a) (by omega), ofNat_eq (b := b) (by omega)]

/-- The second of three bytes writes no overlong form and no surrogate. -/
theorem secondOfThree_iff {a b : UInt8} :
    secondOfThree a b = true ↔ 0x80 ≤ b.toNat ∧ b.toNat ≤ 0xBF
      ∧ (a.toNat = 0xE0 → 0xA0 ≤ b.toNat) ∧ (a.toNat = 0xED → b.toNat ≤ 0x9F) := by
  simp only [secondOfThree, isTail, beq_iff_eq, ← UInt8.toNat_inj]
  split
  · simp_all [UInt8.le_iff_toNat_le]; omega
  · split <;> simp_all [UInt8.le_iff_toNat_le]
    omega

/-- The second of four bytes writes no overlong form and nothing beyond the
last code point. -/
theorem secondOfFour_iff {a b : UInt8} :
    secondOfFour a b = true ↔ 0x80 ≤ b.toNat ∧ b.toNat ≤ 0xBF
      ∧ (a.toNat = 0xF0 → 0x90 ≤ b.toNat) ∧ (a.toNat = 0xF4 → b.toNat ≤ 0x8F) := by
  simp only [secondOfFour, isTail, beq_iff_eq, ← UInt8.toNat_inj]
  split
  · simp_all [UInt8.le_iff_toNat_le]; omega
  · split <;> simp_all [UInt8.le_iff_toNat_le]
    omega

theorem encodeChar_three {a b c : UInt8} (ha : 0xE0 ≤ a.toNat) (ha' : a.toNat < 0xF0)
    (hb : secondOfThree a b = true) (hc : isTail c = true) :
    encodeChar (Char.ofNat ((a.toNat - 0xE0) * 4096 + tailBits b * 64 + tailBits c))
      = [a, b, c] := by
  rw [secondOfThree_iff] at hb
  rw [isTail_iff] at hc
  have hbits : tailBits b = b.toNat - 0x80 := by rw [tailBits]; omega
  have hbits' : tailBits c = c.toNat - 0x80 := by rw [tailBits]; omega
  have hnat : ∀ n, n = (a.toNat - 0xE0) * 4096 + (b.toNat - 0x80) * 64 + (c.toNat - 0x80) →
      (Char.ofNat n).toNat = n := by
    intro n hn
    by_cases hlow : n < 0xD800
    · exact toNat_ofNat_low hlow
    · exact toNat_ofNat_high (by omega) (by omega)
  rw [encodeChar, hbits, hbits', hnat _ rfl, if_neg (by omega), if_neg (by omega),
    if_pos (by omega), ofNat_eq (b := a) (by omega), ofNat_eq (b := b) (by omega),
    ofNat_eq (b := c) (by omega)]

theorem encodeChar_four {a b c d : UInt8} (ha : 0xF0 ≤ a.toNat) (ha' : a.toNat < 0xF5)
    (hb : secondOfFour a b = true) (hc : isTail c = true) (hd : isTail d = true) :
    encodeChar (Char.ofNat ((a.toNat - 0xF0) * 262144 + tailBits b * 4096 + tailBits c * 64
      + tailBits d)) = [a, b, c, d] := by
  rw [secondOfFour_iff] at hb
  rw [isTail_iff] at hc hd
  have hbits : tailBits b = b.toNat - 0x80 := by rw [tailBits]; omega
  have hbits' : tailBits c = c.toNat - 0x80 := by rw [tailBits]; omega
  have hbits'' : tailBits d = d.toNat - 0x80 := by rw [tailBits]; omega
  rw [encodeChar, hbits, hbits', hbits'', toNat_ofNat_high (by omega) (by omega),
    if_neg (by omega), if_neg (by omega), if_neg (by omega), ofNat_eq (b := a) (by omega),
    ofNat_eq (b := b) (by omega), ofNat_eq (b := c) (by omega), ofNat_eq (b := d) (by omega)]

/-! ## Texts -/

@[simp] theorem encode_nil : encode [] = [] := rfl

@[simp] theorem encode_cons (c : Char) (cs : List Char) :
    encode (c :: cs) = encodeChar c ++ encode cs := rfl

@[simp] theorem encode_append (cs ds : List Char) : encode (cs ++ ds) = encode cs ++ encode ds := by
  simp [encode]

/-- Text of ASCII has the bytes that its characters are. -/
theorem encode_ascii {cs : List Char} (h : ∀ c ∈ cs, c.toNat < 0x80) :
    encode cs = cs.map fun c => UInt8.ofNat c.toNat := by
  induction cs with
  | nil => rfl
  | cons c cs ih =>
    obtain ⟨hc, hcs⟩ := List.forall_mem_cons.mp h
    rw [encode_cons, encodeChar, if_pos hc, ih hcs]
    rfl

/-- The characters `cs` are those of `done`, last first, and then those that
`bytes` encode. -/
def Reads (done : List Char) (bytes : List UInt8) (cs : List Char) : Prop :=
  ∃ more, cs = done.reverse ++ more ∧ bytes = encode more

/-- One character read in front of the others. -/
theorem Reads.cons {done cs : List Char} {front bytes : List UInt8} {c : Char}
    (hc : encodeChar c = front) (h : Reads (c :: done) bytes cs) :
    Reads done (front ++ bytes) cs := by
  obtain ⟨more, rfl, rfl⟩ := h
  exact ⟨c :: more, by simp, by simp [hc]⟩

theorem reads_of_decodeOnto {done : List Char} {bytes : List UInt8} {cs : List Char}
    (h : decodeOnto done bytes = some cs) : Reads done bytes cs := by
  fun_induction decodeOnto done bytes with
  | case1 done => exact ⟨[], by simpa using h.symm, rfl⟩
  | case2 done a rest ha ih =>
    rw [UInt8.lt_iff_toNat_lt] at ha
    exact .cons (encodeChar_one ha) (ih h)
  | case4 done a _ ha ha' b rest hb ih =>
    rw [UInt8.lt_iff_toNat_lt] at ha ha'
    exact .cons (encodeChar_two (Nat.le_of_not_lt ha) ha' hb) (ih h)
  | case7 done a _ _ ha ha' b c rest hbc ih =>
    rw [UInt8.lt_iff_toNat_lt] at ha ha'
    obtain ⟨hb, hc⟩ := Bool.and_eq_true_iff.mp hbc
    exact .cons (encodeChar_three (Nat.le_of_not_lt ha) ha' hb hc) (ih h)
  | case10 done a _ _ _ ha ha' b c d rest hbcd ih =>
    rw [UInt8.lt_iff_toNat_lt] at ha ha'
    obtain ⟨hbc, hd⟩ := Bool.and_eq_true_iff.mp hbcd
    obtain ⟨hb, hc⟩ := Bool.and_eq_true_iff.mp hbc
    exact .cons (encodeChar_four (Nat.le_of_not_lt ha) ha' hb hc hd) (ih h)
  | _ => cases h

/-- Bytes that decode are the encoding of what they decode to. -/
theorem encode_of_decode? {bytes : List UInt8} {cs : List Char} (h : decode? bytes = some cs) :
    encode cs = bytes := by
  obtain ⟨more, rfl, rfl⟩ := reads_of_decodeOnto h
  rfl

/-! ## Reading back what was written -/

/-- The four lengths of a character, by its number. -/
theorem encodeChar_cases (c : Char) :
    (c.toNat < 0x80 ∧ encodeChar c = [UInt8.ofNat c.toNat]) ∨
    (0x80 ≤ c.toNat ∧ c.toNat < 0x800 ∧ encodeChar c =
      [UInt8.ofNat (0xC0 + c.toNat / 64), UInt8.ofNat (0x80 + c.toNat % 64)]) ∨
    (0x800 ≤ c.toNat ∧ c.toNat < 0x10000 ∧ encodeChar c =
      [UInt8.ofNat (0xE0 + c.toNat / 4096), UInt8.ofNat (0x80 + c.toNat / 64 % 64),
       UInt8.ofNat (0x80 + c.toNat % 64)]) ∨
    (0x10000 ≤ c.toNat ∧ c.toNat < 0x110000 ∧ encodeChar c =
      [UInt8.ofNat (0xF0 + c.toNat / 262144), UInt8.ofNat (0x80 + c.toNat / 4096 % 64),
       UInt8.ofNat (0x80 + c.toNat / 64 % 64), UInt8.ofNat (0x80 + c.toNat % 64)]) := by
  have hlast : c.toNat < 0x110000 := by
    cases c.valid with
    | inl h => exact Nat.lt_trans h (by decide)
    | inr h => exact h.2
  unfold encodeChar
  by_cases h1 : c.toNat < 0x80
  · exact .inl ⟨h1, if_pos h1⟩
  · by_cases h2 : c.toNat < 0x800
    · exact .inr (.inl ⟨by omega, h2, by simp only [if_neg h1, if_pos h2]⟩)
    · by_cases h3 : c.toNat < 0x10000
      · exact .inr (.inr (.inl ⟨by omega, h3, by simp only [if_neg h1, if_neg h2, if_pos h3]⟩))
      · exact .inr (.inr (.inr ⟨by omega, hlast, by simp only [if_neg h1, if_neg h2, if_neg h3]⟩))

theorem decodeOnto_one {a : UInt8} (ha : a.toNat < 0x80) (done : List Char)
    (bytes : List UInt8) : decodeOnto done (a :: bytes) =
      decodeOnto (Char.ofNat a.toNat :: done) bytes := by
  conv => lhs; rw [decodeOnto.eq_def]
  simp only [UInt8.lt_iff_toNat_lt]
  exact if_pos ha

theorem decodeOnto_two {a b : UInt8} (ha : 0xC2 ≤ a.toNat) (ha' : a.toNat < 0xE0)
    (hb : isTail b = true) (done : List Char) (bytes : List UInt8) :
    decodeOnto done (a :: b :: bytes) =
      decodeOnto (Char.ofNat ((a.toNat - 0xC0) * 64 + tailBits b) :: done) bytes := by
  conv => lhs; rw [decodeOnto.eq_def]
  simp only [UInt8.lt_iff_toNat_lt, hb, if_true]
  rw [if_neg, if_neg, if_pos]
  · exact ha'
  · exact Nat.not_lt.mpr ha
  · exact Nat.not_lt.mpr (Nat.le_trans (by decide) ha)

theorem decodeOnto_three {a b c : UInt8} (ha : 0xE0 ≤ a.toNat) (ha' : a.toNat < 0xF0)
    (hb : secondOfThree a b = true) (hc : isTail c = true) (done : List Char)
    (bytes : List UInt8) : decodeOnto done (a :: b :: c :: bytes) =
      decodeOnto (Char.ofNat ((a.toNat - 0xE0) * 4096 + tailBits b * 64 + tailBits c) :: done)
        bytes := by
  conv => lhs; rw [decodeOnto.eq_def]
  simp only [UInt8.lt_iff_toNat_lt, hb, hc, Bool.and_self, if_true]
  rw [if_neg, if_neg, if_neg, if_pos]
  · exact ha'
  · exact Nat.not_lt.mpr ha
  · exact Nat.not_lt.mpr (Nat.le_trans (by decide) ha)
  · exact Nat.not_lt.mpr (Nat.le_trans (by decide) ha)

theorem decodeOnto_four {a b c d : UInt8} (ha : 0xF0 ≤ a.toNat) (ha' : a.toNat < 0xF5)
    (hb : secondOfFour a b = true) (hc : isTail c = true) (hd : isTail d = true)
    (done : List Char) (bytes : List UInt8) : decodeOnto done (a :: b :: c :: d :: bytes) =
      decodeOnto (Char.ofNat ((a.toNat - 0xF0) * 262144 + tailBits b * 4096 + tailBits c * 64
        + tailBits d) :: done) bytes := by
  conv => lhs; rw [decodeOnto.eq_def]
  simp only [UInt8.lt_iff_toNat_lt, hb, hc, hd, Bool.and_self, if_true]
  rw [if_neg, if_neg, if_neg, if_neg, if_pos]
  · exact ha'
  · exact Nat.not_lt.mpr ha
  · exact Nat.not_lt.mpr (Nat.le_trans (by decide) ha)
  · exact Nat.not_lt.mpr (Nat.le_trans (by decide) ha)
  · exact Nat.not_lt.mpr (Nat.le_trans (by decide) ha)

/-- A continuation byte by its payload. -/
theorem isTail_ofNat {n : Nat} (h : n < 64) : isTail (UInt8.ofNat (0x80 + n)) = true := by
  rw [isTail_iff, UInt8.toNat_ofNat_of_lt' (Nat.lt_trans (Nat.add_lt_add_left h _) (by decide))]
  omega

theorem tailBits_ofNat {n : Nat} (h : n < 64) : tailBits (UInt8.ofNat (0x80 + n)) = n := by
  rw [tailBits, UInt8.toNat_ofNat_of_lt' (Nat.lt_trans (Nat.add_lt_add_left h _) (by decide))]
  omega

/-- The bytes of a character are read as the character. -/
theorem decodeOnto_encodeChar (c : Char) (done : List Char) (bytes : List UInt8) :
    decodeOnto done (encodeChar c ++ bytes) = decodeOnto (c :: done) bytes := by
  have hlead {n : Nat} (h : n < 256) : (UInt8.ofNat n).toNat = n := UInt8.toNat_ofNat_of_lt' h
  have hchar {n : Nat} (h : n = c.toNat) : Char.ofNat n = c := by rw [h, Char.ofNat_toNat]
  have hsurrogate : ¬ (0xD800 ≤ c.toNat ∧ c.toNat < 0xE000) := by
    cases c.valid with
    | inl h => exact fun hno => absurd h (Nat.not_lt.mpr hno.1)
    | inr h => exact fun hno => absurd h.1 (Nat.not_lt.mpr (Nat.le_of_lt_succ hno.2))
  rcases encodeChar_cases c with ⟨hc, hcs⟩ | ⟨hc, hc', hcs⟩ | ⟨hc, hc', hcs⟩ | ⟨hc, hc', hcs⟩
  · rw [hcs, List.singleton_append, decodeOnto_one (by rw [hlead] <;> omega),
      hchar (hlead (by omega))]
  · have ha : (UInt8.ofNat (0xC0 + c.toNat / 64)).toNat = 0xC0 + c.toNat / 64 := hlead (by omega)
    rw [hcs, List.cons_append, List.singleton_append,
      decodeOnto_two (by omega) (by omega) (isTail_ofNat (by omega)), ha, tailBits_ofNat (by omega),
      hchar (by omega)]
  · have ha : (UInt8.ofNat (0xE0 + c.toNat / 4096)).toNat = 0xE0 + c.toNat / 4096 :=
      hlead (by omega)
    have hb : (UInt8.ofNat (0x80 + c.toNat / 64 % 64)).toNat = 0x80 + c.toNat / 64 % 64 :=
      hlead (by omega)
    rw [hcs, List.cons_append, List.cons_append, List.singleton_append,
      decodeOnto_three (by omega) (by omega)
        (secondOfThree_iff.mpr (by rw [ha, hb]; omega)) (isTail_ofNat (by omega)), ha,
      tailBits_ofNat (by omega), tailBits_ofNat (by omega), hchar (by omega)]
  · have ha : (UInt8.ofNat (0xF0 + c.toNat / 262144)).toNat = 0xF0 + c.toNat / 262144 :=
      hlead (by omega)
    have hb : (UInt8.ofNat (0x80 + c.toNat / 4096 % 64)).toNat = 0x80 + c.toNat / 4096 % 64 :=
      hlead (by omega)
    rw [hcs, List.cons_append, List.cons_append, List.cons_append, List.singleton_append,
      decodeOnto_four (by omega) (by omega) (secondOfFour_iff.mpr (by rw [ha, hb]; omega))
        (isTail_ofNat (by omega)) (isTail_ofNat (by omega)), ha, tailBits_ofNat (by omega),
      tailBits_ofNat (by omega), tailBits_ofNat (by omega), hchar (by omega)]

/-- The bytes of characters decode to them. -/
theorem decode?_encode (cs : List Char) : decode? (encode cs) = some cs := by
  have hrun (done : List Char) : decodeOnto done (encode cs) = some (done.reverse ++ cs) := by
    induction cs generalizing done with
    | nil => simp [decodeOnto]
    | cons c cs ih =>
      rw [encode_cons, decodeOnto_encodeChar, ih]
      simp
  exact hrun []

/-- The bytes of a text decode to it. -/
theorem text?_bytes (s : String) : text? (bytes s) = some s := by
  rw [text?, bytes, decode?_encode, Option.map_some, String.ofList_toList]

end Runwatch.Text.Utf8
