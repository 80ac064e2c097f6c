/-
Runwatch.Proofs.Json.Skimming — what the reader accepts is passed over.

Two readers go through JSON text. One takes characters and makes a value;
the other takes bytes, looks at their shape alone, and makes nothing. Where
the first one accepts, the second one goes on to the same place: the bytes
of the text that is left (`skip_readValue`), and a string that both read is
the same (`readText_encode`). The converse fails, since strings that are
passed over may hold any bytes and numbers may have any size.

  §1 Classes — a byte belongs to a class of ASCII as its character does
               (`IsClassOf`), so blanks and digits end at the same place.
  §2 Strings — escapes and plain characters.
  §3 Numbers — digits, fraction and exponent, each by its first character.
  §4 Values  — `skims_values`, by induction on the reader's fuel; the fuel
               that is needed is counted by the characters passed over.
-/
import Runwatch.Json.Skim
import Runwatch.Proofs.Json.Passage
import Runwatch.Proofs.Json.RoundTrip

namespace Runwatch.Json

open Text (isDigit hexValue?)
open Text.Utf8 (encode encodeChar)

/-- What stands between two points of a text makes it no longer. -/
theorem Passed.length_le {cs rest : List Char} (h : Passed cs rest) :
    rest.length ≤ cs.length := by
  obtain ⟨w, rfl, -⟩ := h
  simp

namespace Skim

/-! ## §1 Classes -/

/-- A class of bytes is one of characters, all of them ASCII. -/
structure IsClassOf (q : UInt8 → Bool) (p : Char → Bool) : Prop where
  eq : ∀ b, q b = p (Char.ofNat b.toNat)
  ascii : ∀ c, p c = true → c.toNat < 0x80

/-- A class may be compared byte by byte. -/
theorem IsClassOf.of_decide {q : UInt8 → Bool} {p : Char → Bool}
    (heq : ∀ n < 256, q (UInt8.ofNat n) = p (Char.ofNat n))
    (hascii : ∀ c, p c = true → c.toNat < 0x80) : IsClassOf q p := by
  refine ⟨fun b => ?_, hascii⟩
  have hb := heq b.toNat b.toNat_lt
  rwa [UInt8.ofNat_toNat] at hb

theorem isClassOf_gap : IsClassOf isGapByte isGap := by
  refine .of_decide (by decide +kernel) ?_
  intro c hc
  simp only [isGap, Bool.or_eq_true, beq_iff_eq] at hc
  rcases hc with ((rfl | rfl) | rfl) | rfl <;> decide

theorem isClassOf_digit : IsClassOf isDigitByte isDigit := by
  refine .of_decide (by decide +kernel) ?_
  intro c hc
  simp only [isDigit, Bool.and_eq_true, decide_eq_true_eq, Char.le_def, UInt32.le_iff_toNat_le] at hc
  have hlast : c.val.toNat ≤ 57 := hc.2
  change c.val.toNat < 0x80
  omega

theorem isClassOf_hex : IsClassOf isHexByte fun c => (hexValue? c).isSome := by
  refine ⟨fun b => rfl, ?_⟩
  intro c hc
  change c.val.toNat < 0x80
  simp only [hexValue?, Char.le_def, UInt32.le_iff_toNat_le] at hc
  grind

theorem isClassOf_escape : IsClassOf isEscapeByte fun c => (simpleEscape? c).isSome := by
  refine ⟨fun b => rfl, ?_⟩
  intro c hc
  by_contra hlt
  have hne (d : Char) (hd : d.toNat < 0x80) : ¬ c = d := by
    rintro rfl
    exact hlt hd
  simp [simpleEscape?, hne '"' (by decide), hne '\\' (by decide), hne '/' (by decide),
    hne 'b' (by decide), hne 'f' (by decide), hne 'n' (by decide), hne 'r' (by decide),
    hne 't' (by decide)] at hc

section

variable {q : UInt8 → Bool} {p : Char → Bool}

/-- A character of ASCII is the byte of its number. -/
theorem encodeChar_of_lt {c : Char} (h : c.toNat < 0x80) :
    encodeChar c = [UInt8.ofNat c.toNat] := if_pos h

theorem toNat_byte {c : Char} (h : c.toNat < 0x80) : (UInt8.ofNat c.toNat).toNat = c.toNat := by
  rw [UInt8.toNat_ofNat']
  omega

/-- A character of the class is one byte, of the class. -/
theorem IsClassOf.encodeChar_eq (h : IsClassOf q p) {c : Char} (hc : p c = true) :
    ∃ b, encodeChar c = [b] ∧ q b = true := by
  have hlt := h.ascii c hc
  refine ⟨_, encodeChar_of_lt hlt, ?_⟩
  rw [h.eq, toNat_byte hlt, Char.ofNat_toNat, hc]

/-- The first byte of any other character is not of the class. -/
theorem IsClassOf.head_encodeChar (h : IsClassOf q p) {c : Char} (hc : p c = false) :
    ∃ b bs, encodeChar c = b :: bs ∧ q b = false := by
  by_cases hlt : c.toNat < 0x80
  · refine ⟨_, [], encodeChar_of_lt hlt, ?_⟩
    rw [h.eq, toNat_byte hlt, Char.ofNat_toNat, hc]
  · obtain ⟨b, bs, hbytes⟩ := List.exists_cons_of_ne_nil (Telemetry.encodeChar_ne_nil c)
    refine ⟨b, bs, hbytes, ?_⟩
    have hb : 0x80 ≤ b.toNat :=
      Telemetry.le_of_mem_encodeChar (Nat.le_of_not_lt hlt) (hbytes ▸ List.mem_cons_self)
    have hbyte : (Char.ofNat b.toNat).toNat = b.toNat :=
      Text.Utf8.toNat_ofNat_low (Nat.lt_trans b.toNat_lt (by decide))
    rw [h.eq]
    cases hp : p (Char.ofNat b.toNat) with
    | false => rfl
    | true => exact absurd (h.ascii _ hp) (by omega)

/-- Dropping bytes of the class is dropping its characters. -/
theorem IsClassOf.dropWhile_encode (h : IsClassOf q p) (cs : List Char) :
    (encode cs).dropWhile q = encode (cs.dropWhile p) := by
  induction cs with
  | nil => rfl
  | cons c cs ih =>
    cases hc : p c with
    | true =>
      obtain ⟨b, hbytes, hb⟩ := h.encodeChar_eq hc
      simp [hbytes, hb, hc, ih]
    | false =>
      obtain ⟨b, bs, hbytes, hb⟩ := h.head_encodeChar hc
      simp [hbytes, hb, hc]

end

theorem skipGapBytes_encode (cs : List Char) : skipGapBytes (encode cs) = encode (skipGap cs) :=
  isClassOf_gap.dropWhile_encode cs

theorem length_le_encode (cs : List Char) : cs.length ≤ (encode cs).length := by
  induction cs with
  | nil => exact Nat.le_refl 0
  | cons c cs ih =>
    have hone := List.length_pos_iff.mpr (Telemetry.encodeChar_ne_nil c)
    simp only [Text.Utf8.encode_cons, List.length_append, List.length_cons]
    omega

/-! ## §2 Strings -/

/-- A byte that is no quote, no backslash and no control. -/
theorem skipString_byte {b : UInt8} (hquote : b ≠ 0x22) (hback : b ≠ 0x5C) (hcontrol : ¬ b < 0x20)
    (bs : List UInt8) : skipString (b :: bs) = skipString bs := by
  rw [skipString.eq_def]
  split <;> simp_all

theorem skipString_bytes {front : List UInt8} (h : ∀ b ∈ front, 0x80 ≤ b.toNat)
    (bs : List UInt8) : skipString (front ++ bs) = skipString bs := by
  induction front with
  | nil => rfl
  | cons b front ih =>
    obtain ⟨hb, hfront⟩ := List.forall_mem_cons.mp h
    have hne (n : UInt8) (hn : n.toNat < 0x80) : b ≠ n := by
      rintro rfl
      omega
    rw [List.cons_append, skipString_byte (hne _ (by decide)) (hne _ (by decide)), ih hfront]
    rw [UInt8.lt_iff_toNat_lt]
    change ¬ b.toNat < 32
    omega

/-- A character that stands for itself. -/
theorem skipString_char {c : Char} (hquote : c ≠ '"') (hback : c ≠ '\\')
    (hcontrol : ¬ c.toNat < 0x20) (cs : List Char) :
    skipString (encode (c :: cs)) = skipString (encode cs) := by
  by_cases hlt : c.toNat < 0x80
  · have hne (d : Char) (hd : d.toNat < 0x80) (hcd : c ≠ d) :
        UInt8.ofNat c.toNat ≠ UInt8.ofNat d.toNat := by
      intro h
      rw [← UInt8.toNat_inj, toNat_byte hlt, toNat_byte hd, Char.toNat_inj] at h
      exact hcd h
    rw [Text.Utf8.encode_cons, encodeChar_of_lt hlt]
    refine skipString_byte (hne '"' (by decide) hquote) (hne '\\' (by decide) hback) ?_ _
    rw [UInt8.lt_iff_toNat_lt, toNat_byte hlt]
    exact hcontrol
  · exact skipString_bytes (fun b hb => Telemetry.le_of_mem_encodeChar (by omega) hb) _

/-- An escape of one letter. -/
theorem skipString_simple {c e : Char} (h : simpleEscape? c = some e) (cs : List Char) :
    skipString (encode ('\\' :: c :: cs)) = skipString (encode cs) := by
  have hc : (simpleEscape? c).isSome = true := by simp [h]
  obtain ⟨b, hbytes, hb⟩ := isClassOf_escape.encodeChar_eq hc
  have hu : b ≠ 0x75 := by
    rintro rfl
    exact absurd hb (by decide)
  show skipString (0x5C :: (encodeChar c ++ encode cs)) = _
  rw [hbytes, List.singleton_append, skipString, hb]
  · rfl
  · intro _ _ _ _ _ hbu
    exact absurd hbu hu

/-- An escape by a number. -/
theorem skipString_codeUnit {a b c d : Char} {u : Nat} (h : codeUnit? a b c d = some u)
    (cs : List Char) :
    skipString (encode ('\\' :: 'u' :: a :: b :: c :: d :: cs)) = skipString (encode cs) := by
  simp only [codeUnit?, Option.bind_eq_bind, Option.bind_eq_some_iff] at h
  obtain ⟨_, ha, _, hb, _, hc, _, hd, _⟩ := h
  have hbyte {x : Char} {n : Nat} (hx : hexValue? x = some n) :
      ∃ b, encodeChar x = [b] ∧ isHexByte b = true :=
    isClassOf_hex.encodeChar_eq (by simp [hx])
  obtain ⟨a', ha', hexa⟩ := hbyte ha
  obtain ⟨b', hb', hexb⟩ := hbyte hb
  obtain ⟨c', hc', hexc⟩ := hbyte hc
  obtain ⟨d', hd', hexd⟩ := hbyte hd
  have hbytes : encode ('\\' :: 'u' :: a :: b :: c :: d :: cs)
      = 0x5C :: 0x75 :: a' :: b' :: c' :: d' :: encode cs := by
    simp only [Text.Utf8.encode_cons, ha', hb', hc', hd']
    rfl
  rw [hbytes, skipString]
  simp [hexa, hexb, hexc, hexd]

theorem skipString_readStringOnto {done cs rest : List Char} {text : String}
    (h : readStringOnto done cs = some (text, rest)) :
    skipString (encode cs) = some (encode rest) := by
  fun_induction readStringOnto done cs with
  | case2 done cs =>
    obtain ⟨-, rfl⟩ := Prod.mk.inj (Option.some.inj h)
    rfl
  | case5 done a b c d high hu _ a' b' c' d' cs low hl _ ih =>
    rw [skipString_codeUnit hu, skipString_codeUnit hl, ih h]
  | case9 done a b c d cs u hu _ _ ih => rw [skipString_codeUnit hu, ih h]
  | case10 done c cs _ e he ih => rw [skipString_simple he, ih h]
  | case13 done c cs hquote _ hescape hcontrol ih =>
    by_cases hback : c = '\\'
    · cases cs with
      | nil => simp [readStringOnto] at h
      | cons c' cs => exact (hescape c' cs hback rfl).elim
    · rw [skipString_char hquote hback hcontrol, ih h]
  | _ => cases h

/-- What a string reads does not depend on what stands behind it. -/
theorem readStringOnto_local {done cs rest : List Char} {text : String}
    (h : readStringOnto done cs = some (text, rest)) :
    ∃ w, cs = w ++ rest ∧ readStringOnto done w = some (text, []) := by
  fun_induction readStringOnto done cs with
  | case2 done cs =>
    obtain ⟨htext, rfl⟩ := Prod.mk.inj (Option.some.inj h)
    exact ⟨['"'], rfl, by rw [readStringOnto, htext]⟩
  | case5 done a b c d high hu hhigh a' b' c' d' cs low hl hlow ih =>
    obtain ⟨w, rfl, hw⟩ := ih h
    refine ⟨['\\', 'u', a, b, c, d, '\\', 'u', a', b', c', d'] ++ w, by simp, ?_⟩
    simp only [List.cons_append, List.nil_append]
    rw [readStringOnto]
    simp only [hu, hhigh, hl, hlow, if_true]
    exact hw
  | case9 done a b c d cs u hu hhigh hlow ih =>
    obtain ⟨w, rfl, hw⟩ := ih h
    refine ⟨['\\', 'u', a, b, c, d] ++ w, by simp, ?_⟩
    simp only [List.cons_append, List.nil_append]
    rw [readStringOnto]
    simp only [hu, hhigh, hlow, if_false, Bool.false_eq_true]
    exact hw
  | case10 done c cs _ e he ih =>
    obtain ⟨w, rfl, hw⟩ := ih h
    refine ⟨['\\', c] ++ w, by simp, ?_⟩
    have hu : c ≠ 'u' := by
      rintro rfl
      simp [simpleEscape?] at he
    rw [List.cons_append, List.singleton_append, readStringOnto_simple hu he, hw]
  | case13 done c cs hquote _ hescape hcontrol ih =>
    by_cases hback : c = '\\'
    · cases cs with
      | nil => simp [readStringOnto] at h
      | cons c' cs => exact (hescape c' cs hback rfl).elim
    · obtain ⟨w, rfl, hw⟩ := ih h
      exact ⟨c :: w, rfl, by rw [readStringOnto_char hquote hback hcontrol, hw]⟩
  | _ => cases h

/-- A string is read the same from the bytes. -/
theorem readText_encode {cs rest : List Char} {text : String}
    (h : readString cs = some (text, rest)) :
    readText (encode cs) = some (text, encode rest) := by
  obtain ⟨w, rfl, hw⟩ := readStringOnto_local h
  have hskip := skipString_readStringOnto h
  have hfront : (encode (w ++ rest)).take ((encode (w ++ rest)).length - (encode rest).length)
      = encode w := by
    simp
  unfold readText
  rw [hskip]
  simp only [bind, Option.bind, hfront, Text.Utf8.decode?_encode, readString, hw]
  rfl

/-! ## §3 Numbers -/

/-- A single character is a class. -/
theorem isClassOf_char {x : Char} (hx : x.toNat < 0x80) :
    IsClassOf (· == UInt8.ofNat x.toNat) (· == x) := by
  refine ⟨fun b => ?_, fun c hc => beq_iff_eq.mp hc ▸ hx⟩
  have hb : (Char.ofNat b.toNat).toNat = b.toNat :=
    Text.Utf8.toNat_ofNat_low (Nat.lt_trans b.toNat_lt (by decide))
  rw [Bool.eq_iff_iff, beq_iff_eq, beq_iff_eq, ← UInt8.toNat_inj, ← Char.toNat_inj, hb,
    toNat_byte hx]

/-- A text begins with an ASCII character if it begins with its byte. -/
theorem begins_of_encode {x : Char} (hx : x.toNat < 0x80) {cs : List Char} {bs : List UInt8}
    (h : encode cs = UInt8.ofNat x.toNat :: bs) : ∃ rest, cs = x :: rest ∧ bs = encode rest := by
  cases cs with
  | nil => cases h
  | cons c cs =>
    cases hc : c == x with
    | true =>
      obtain rfl := beq_iff_eq.mp hc
      rw [Text.Utf8.encode_cons, encodeChar_of_lt hx] at h
      exact ⟨cs, rfl, (List.cons.inj h).2.symm⟩
    | false =>
      obtain ⟨b, bs', hbytes, hb⟩ := (isClassOf_char hx).head_encodeChar hc
      rw [Text.Utf8.encode_cons, hbytes] at h
      exact absurd (List.cons.inj h).1 (beq_eq_false_iff_ne.mp hb)

theorem skipDigits_encode {cs : List Char} (h : cs.takeWhile isDigit ≠ []) :
    skipDigits (encode cs) = some (encode (cs.dropWhile isDigit)) := by
  cases cs with
  | nil => exact absurd rfl h
  | cons c cs =>
    cases hc : isDigit c with
    | false => simp [hc] at h
    | true =>
      obtain ⟨b, hbytes, hb⟩ := isClassOf_digit.encodeChar_eq hc
      have hdrop := isClassOf_digit.dropWhile_encode (c :: cs)
      rw [Text.Utf8.encode_cons, hbytes, List.singleton_append] at hdrop ⊢
      simp only [skipDigits, hb, if_true, hdrop]

/-- An exponent without a sign, behind its letter. -/
theorem skipExponent_unsigned {cs : List Char} (hplus : ∀ rest, cs ≠ '+' :: rest)
    (hminus : ∀ rest, cs ≠ '-' :: rest) :
    skipExponent (0x65 :: encode cs) = skipDigits (encode cs)
      ∧ skipExponent (0x45 :: encode cs) = skipDigits (encode cs) := by
  constructor
  all_goals
    simp only [skipExponent, beq_self_eq_true, Bool.true_or, Bool.or_true, if_true]
    split
    · next heq =>
      obtain ⟨rest, hcs, -⟩ := begins_of_encode (x := '+') (by decide) heq
      exact absurd hcs (hplus rest)
    · next heq =>
      obtain ⟨rest, hcs, -⟩ := begins_of_encode (x := '-') (by decide) heq
      exact absurd hcs (hminus rest)
    · rfl

/-- An exponent behind its letter. -/
theorem skipSigned_readExponent {negative : Bool} {significand : Nat} {start : Int}
    {cs rest : List Char} {n : Number}
    (h : readExponent negative significand start cs = some (n, rest)) :
    skipExponent (0x65 :: encode cs) = some (encode rest)
      ∧ skipExponent (0x45 :: encode cs) = some (encode rest) := by
  unfold readExponent at h
  split at h
  next down digits hsign =>
  have hrest : digits.takeWhile isDigit ≠ [] ∧ digits.dropWhile isDigit = rest := by
    dsimp only at h
    split at h
    · cases h
    · next hne =>
      refine ⟨by simpa using hne, ?_⟩
      split at h
      · split at h
        · cases h
        · exact (Prod.mk.inj (Option.some.inj h)).2
      · obtain ⟨_, -, hd⟩ := Option.map_eq_some_iff.mp h
        exact (Prod.mk.inj hd).2
  have hdigits := hrest.2 ▸ skipDigits_encode hrest.1
  split at hsign
  · obtain ⟨-, rfl⟩ := Prod.mk.inj hsign
    exact ⟨hdigits, hdigits⟩
  · obtain ⟨-, rfl⟩ := Prod.mk.inj hsign
    exact ⟨hdigits, hdigits⟩
  · next hplus hminus =>
    obtain ⟨-, rfl⟩ := Prod.mk.inj hsign
    obtain ⟨hsmall, hlarge⟩ := skipExponent_unsigned hplus hminus
    rw [hsmall, hlarge]
    exact ⟨hdigits, hdigits⟩

/-- Without a letter there is no exponent. -/
theorem skipExponent_none {cs : List Char} (hsmall : ∀ rest, cs ≠ 'e' :: rest)
    (hlarge : ∀ rest, cs ≠ 'E' :: rest) : skipExponent (encode cs) = some (encode cs) := by
  unfold skipExponent
  split
  · next b bs heq =>
    have hs : b ≠ 0x65 := by
      rintro rfl
      obtain ⟨rest, hcs, -⟩ := begins_of_encode (x := 'e') (by decide) heq
      exact hsmall rest hcs
    have hl : b ≠ 0x45 := by
      rintro rfl
      obtain ⟨rest, hcs, -⟩ := begins_of_encode (x := 'E') (by decide) heq
      exact hlarge rest hcs
    simp [hs, hl]
  · next heq => rw [heq]

/-- An exponent, if there is one. -/
theorem skipExponent_encode {negative : Bool} {significand : Nat} {exponent : Int}
    {cs rest : List Char} {n : Number}
    (h : (match cs with
      | 'e' :: cs => readExponent negative significand exponent cs
      | 'E' :: cs => readExponent negative significand exponent cs
      | _ => (assembleDouble? negative significand exponent).map fun d => (.double d, cs))
        = some (n, rest)) : skipExponent (encode cs) = some (encode rest) := by
  split at h
  · exact (skipSigned_readExponent h).1
  · exact (skipSigned_readExponent h).2
  · next hsmall hlarge =>
    obtain ⟨_, -, hd⟩ := Option.map_eq_some_iff.mp h
    obtain ⟨-, rfl⟩ := Prod.mk.inj hd
    exact skipExponent_none hsmall hlarge

/-- Without a point it is an exponent, if anything. -/
theorem skipFraction_eq {cs : List Char} (h : ∀ rest, cs ≠ '.' :: rest) :
    skipFraction (encode cs) = skipExponent (encode cs) := by
  rw [skipFraction]
  intro rest heq
  obtain ⟨rest, hcs, -⟩ := begins_of_encode (x := '.') (by decide) heq
  exact h rest hcs

theorem skipFraction_readFraction {negative : Bool} {significand : Nat} {start : Int}
    {cs rest : List Char} {n : Number}
    (h : readFraction negative significand start cs = some (n, rest)) :
    skipFraction (encode cs) = some (encode rest) := by
  unfold readFraction at h
  by_cases hpoint : (cs.head? == some '.') = true
  · simp only [hpoint, Bool.true_and, if_true] at h
    split at h
    · cases h
    · next hdigits =>
      match cs, hpoint with
      | c :: cs, hpoint =>
        obtain rfl : c = '.' := by simpa using hpoint
        have hrun : cs.takeWhile isDigit ≠ [] := by simpa using hdigits
        have hskip := skipDigits_encode hrun
        show (skipDigits (encode cs)).bind skipExponent = _
        rw [hskip, Option.bind_some]
        exact skipExponent_encode h
  · simp only [hpoint, Bool.false_and, if_false, Bool.false_eq_true] at h
    have hne : ∀ rest, cs ≠ '.' :: rest := by
      rintro rest rfl
      exact hpoint rfl
    rw [skipFraction_eq hne]
    exact skipExponent_encode h

/-- A number that is whole ends where its digits do. -/
theorem skipFraction_whole {cs : List Char}
    (h : ∀ c ∈ cs.head?, (c == '.' || c == 'e' || c == 'E') = false) :
    skipFraction (encode cs) = some (encode cs) := by
  rw [skipFraction_eq, skipExponent_none]
  all_goals
    rintro rest rfl
    exact absurd (h _ rfl) (by decide)

/-- A number behind its sign, if what follows its digits is passed over. -/
theorem skipUnsigned_encode {cs : List Char} {rest : List UInt8}
    (hsome : cs.takeWhile isDigit ≠ []) (hzero : ∀ c ds, cs.takeWhile isDigit ≠ '0' :: c :: ds)
    (h : skipFraction (encode (cs.dropWhile isDigit)) = some rest) :
    skipUnsigned (encode cs) = some rest := by
  unfold skipUnsigned
  split
  · next bs heq =>
    obtain ⟨cs, rfl, rfl⟩ := begins_of_encode (x := '0') (by decide) heq
    have hnone : cs.takeWhile isDigit = [] := by
      cases hds : cs.takeWhile isDigit with
      | nil => rfl
      | cons d ds => exact absurd (by simp [hds, isDigit]) (hzero d ds)
    have hdrop : cs.dropWhile isDigit = cs := by
      have happ := List.takeWhile_append_dropWhile (p := isDigit) (l := cs)
      rwa [hnone, List.nil_append] at happ
    rw [List.dropWhile_cons_of_pos rfl, hdrop] at h
    -- No digit stands behind the zero.
    cases cs with
    | nil => exact h
    | cons d cs =>
      have hd : isDigit d = false := by
        cases hd : isDigit d with
        | false => rfl
        | true => simp [hd] at hnone
      obtain ⟨b, bs, hbytes, hb⟩ := isClassOf_digit.head_encodeChar hd
      rw [Text.Utf8.encode_cons, hbytes, List.cons_append] at h ⊢
      simp only [hb, Bool.false_eq_true, if_false]
      exact h
  · rw [skipDigits_encode hsome, Option.bind_some, h]

theorem skipUnsigned_readUnsigned {negative : Bool} {cs rest : List Char} {n : Number}
    (h : readUnsigned negative cs = some (n, rest)) :
    skipUnsigned (encode cs) = some (encode rest) := by
  unfold readUnsigned at h
  dsimp only at h
  split at h
  · cases h
  · cases h
  · next hnone hzero =>
    refine skipUnsigned_encode hnone hzero ?_
    split at h
    all_goals
      next hrest =>
      split at h
      · next hwhole =>
        obtain ⟨_, -, hd⟩ := Option.map_eq_some_iff.mp h
        obtain ⟨-, rfl⟩ := Prod.mk.inj hd
        refine skipFraction_whole ?_
        rw [hrest]
        rintro c ⟨⟩
        all_goals simpa using (Bool.and_eq_true_iff.mp hwhole).2
      · exact skipFraction_readFraction h

/-- A number is passed over. -/
theorem skipNumber_readNumber {cs rest : List Char} {n : Number}
    (h : readNumber cs = some (n, rest)) : skipNumber (encode cs) = some (encode rest) := by
  unfold readNumber at h
  split at h
  · exact skipUnsigned_readUnsigned h
  · next hminus =>
    rw [skipNumber, skipUnsigned_readUnsigned h]
    intro bs heq
    obtain ⟨rest, hcs, -⟩ := begins_of_encode (x := '-') (by decide) heq
    exact hminus rest hcs

/-! ## §4 Values -/

/-- A function with fuel passes over what stands between two points of a
text, with two units of fuel for each character there. -/
def Skims (skip : Nat → List UInt8 → Option (List UInt8)) (cs rest : List Char) : Prop :=
  ∀ n, 2 * cs.length < n + 2 * rest.length → skip n (encode cs) = some (encode rest)

/-- What the reader takes for a value is passed over. -/
def ValueSkims (fuel : Nat) : Prop :=
  ∀ depth cs v rest, readValue fuel depth cs = some (v, rest) → Skims skipValue cs rest

/-- What it takes for elements is passed over. -/
def ElementsSkim (fuel : Nat) : Prop :=
  ∀ depth done cs v rest, readElements fuel depth done cs = some (v, rest) →
    Skims skipElements cs rest

/-- What it takes for members is passed over. -/
def MembersSkim (fuel : Nat) : Prop :=
  ∀ depth done cs v rest, readMembers fuel depth done cs = some (v, rest) →
    Skims skipMembers cs rest

/-- The first byte of a number. -/
theorem exists_of_readNumber {cs rest : List Char} {n : Number}
    (h : readNumber cs = some (n, rest)) :
    ∃ b bs, encode cs = b :: bs ∧ (b = 0x2D ∨ isDigitByte b = true) := by
  have hskip := skipNumber_readNumber h
  generalize encode cs = bs at hskip
  cases bs with
  | nil => cases hskip
  | cons b bs =>
    refine ⟨b, bs, rfl, ?_⟩
    by_cases hb : b = 0x2D
    · exact .inl hb
    · by_cases h0 : b = 0x30
      · exact .inr (h0 ▸ rfl)
      · right
        simp [skipNumber, skipUnsigned, hb, h0, skipDigits] at hskip
        grind

/-- An array behind its opening bracket. -/
theorem skipElements_open {fuel depth n : Nat} (he : ElementsSkim fuel) {cs rest : List Char}
    {v : Value}
    (h : (match depth with
      | 0 => none
      | depth + 1 =>
        match skipGap cs with
        | ']' :: rest => some (.array [], rest)
        | rest => readElements fuel depth [] rest) = some (v, rest))
    (hn : 2 * cs.length < n + 2 * rest.length) :
    (match skipGapBytes (encode cs) with
      | 0x5D :: rest => some rest
      | rest => skipElements n rest) = some (encode rest) := by
  have hgap := (passed_skipGap cs).length_le
  rw [skipGapBytes_encode]
  split at h
  · cases h
  · split at h
    · next heq =>
      obtain ⟨-, rfl⟩ := Prod.mk.inj (Option.some.inj h)
      rw [heq]
      rfl
    · next hne =>
      split
      · next heq =>
        obtain ⟨_, hcs, -⟩ := begins_of_encode (x := ']') (by decide) heq
        exact absurd hcs (hne _)
      · exact he _ _ _ _ _ h n (by omega)

/-- An object behind its opening brace. -/
theorem skipMembers_open {fuel depth n : Nat} (hm : MembersSkim fuel) {cs rest : List Char}
    {v : Value}
    (h : (match depth with
      | 0 => none
      | depth + 1 =>
        match skipGap cs with
        | '\x7d' :: rest => some (.object [], rest)
        | rest => readMembers fuel depth [] rest) = some (v, rest))
    (hn : 2 * cs.length < n + 2 * rest.length) :
    (match skipGapBytes (encode cs) with
      | 0x7D :: rest => some rest
      | rest => skipMembers n rest) = some (encode rest) := by
  have hgap := (passed_skipGap cs).length_le
  rw [skipGapBytes_encode]
  split at h
  · cases h
  · split at h
    · next heq =>
      obtain ⟨-, rfl⟩ := Prod.mk.inj (Option.some.inj h)
      rw [heq]
      rfl
    · next hne =>
      split
      · next heq =>
        obtain ⟨_, hcs, -⟩ := begins_of_encode (x := '\x7d') (by decide) heq
        exact absurd hcs (hne _)
      · exact hm _ _ _ _ _ h n (by omega)

theorem ValueSkims.succ {fuel : Nat} (he : ElementsSkim fuel) (hm : MembersSkim fuel) :
    ValueSkims (fuel + 1) := by
  intro depth cs v rest h n hn
  have hpassed := ((passed_values (fuel + 1)).1 _ _ _ _ h).length_le
  cases n with
  | zero => omega
  | succ n =>
    have hgap := (passed_skipGap cs).length_le
    unfold readValue at h
    unfold skipValue
    rw [skipGapBytes_encode]
    split at h
    · next heq =>
      obtain ⟨-, rfl⟩ := Prod.mk.inj (Option.some.inj h)
      rw [heq]
      rfl
    · next heq =>
      obtain ⟨-, rfl⟩ := Prod.mk.inj (Option.some.inj h)
      rw [heq]
      rfl
    · next heq =>
      obtain ⟨-, rfl⟩ := Prod.mk.inj (Option.some.inj h)
      rw [heq]
      rfl
    · next heq =>
      obtain ⟨⟨text, rest'⟩, hs, hv⟩ := Option.map_eq_some_iff.mp h
      obtain ⟨-, rfl⟩ := Prod.mk.inj hv
      rw [heq]
      exact skipString_readStringOnto hs
    · next inner heq =>
      rw [heq, List.length_cons] at hgap
      rw [heq]
      exact skipElements_open he h (by omega)
    · next inner heq =>
      rw [heq, List.length_cons] at hgap
      rw [heq]
      exact skipMembers_open hm h (by omega)
    · obtain ⟨⟨number, rest'⟩, hnumber, hv⟩ := Option.map_eq_some_iff.mp h
      obtain ⟨-, rfl⟩ := Prod.mk.inj hv
      obtain ⟨b, bs, hbytes, hb⟩ := exists_of_readNumber hnumber
      have hskip := skipNumber_readNumber hnumber
      rw [hbytes] at hskip ⊢
      -- No other value begins with this byte.
      split
      all_goals first
        | exact hskip
        | next heq =>
          obtain ⟨rfl, -⟩ := List.cons.inj heq
          exact absurd hb (by decide)

theorem ElementsSkim.succ {fuel : Nat} (hv : ValueSkims fuel) (he : ElementsSkim fuel) :
    ElementsSkim (fuel + 1) := by
  intro depth done cs v rest h n hn
  have hpassed := ((passed_values (fuel + 1)).2.1 _ _ _ _ _ h).length_le
  cases n with
  | zero => omega
  | succ n =>
    unfold readElements at h
    unfold skipElements
    split at h
    · cases h
    · next w behind hread =>
      have hvalue := ((passed_values fuel).1 _ _ _ _ hread).length_le
      have hgap := (passed_skipGap behind).length_le
      split at h
      · next after heq =>
        have hafter := ((passed_values fuel).2.1 _ _ _ _ _ h).length_le
        rw [heq, List.length_cons] at hgap
        have hcomma : encode (',' :: after) = 0x2C :: encode after := rfl
        simp only [hv _ _ _ _ hread n (by omega), skipGapBytes_encode, heq, hcomma]
        exact he _ _ _ _ _ h n (by omega)
      · next after heq =>
        obtain ⟨-, rfl⟩ := Prod.mk.inj (Option.some.inj h)
        rw [heq, List.length_cons] at hgap
        simp only [hv _ _ _ _ hread n (by omega), skipGapBytes_encode, heq]
        rfl
      · cases h

theorem MembersSkim.succ {fuel : Nat} (hv : ValueSkims fuel) (hm : MembersSkim fuel) :
    MembersSkim (fuel + 1) := by
  intro depth done cs v rest h n hn
  have hpassed := ((passed_values (fuel + 1)).2.2 _ _ _ _ _ h).1.length_le
  simp only [List.length_cons] at hpassed
  cases n with
  | zero => omega
  | succ n =>
    have hfirst := (passed_skipGap cs).length_le
    unfold readMembers at h
    unfold skipMembers
    rw [skipGapBytes_encode]
    split at h
    · next behind hquote =>
      split at h
      · cases h
      · next name colon hname =>
        have hlength := (passed_readString hname).length_le
        have hcolons := (passed_skipGap colon).length_le
        split at h
        · next text hcolon =>
          split at h
          · cases h
          · next w after hread =>
            have hvalue := ((passed_values fuel).1 _ _ _ _ hread).length_le
            have hgap := (passed_skipGap after).length_le
            rw [hquote, List.length_cons] at hfirst
            rw [hcolon, List.length_cons] at hcolons
            rw [List.length_cons] at hlength
            have hopen : encode ('"' :: behind) = 0x22 :: encode behind := rfl
            have hsep : encode (':' :: text) = 0x3A :: encode text := rfl
            have hskip : skipString (encode behind) = some (encode colon) :=
              skipString_readStringOnto hname
            rw [hquote, hopen]
            simp only [hskip, skipGapBytes_encode, hcolon, hsep]
            split at h
            · next more heq =>
              have hmore := ((passed_values fuel).2.2 _ _ _ _ _ h).1.length_le
              rw [heq, List.length_cons] at hgap
              rw [List.length_cons] at hmore
              have hcomma : encode (',' :: more) = 0x2C :: encode more := rfl
              simp only [hv _ _ _ _ hread n (by omega), skipGapBytes_encode, heq, hcomma]
              exact hm _ _ _ _ _ h n (by omega)
            · next heq =>
              obtain ⟨-, rfl⟩ := Prod.mk.inj (Option.some.inj h)
              rw [heq, List.length_cons] at hgap
              simp only [hv _ _ _ _ hread n (by omega), skipGapBytes_encode, heq]
              rfl
            · cases h
        · cases h
    · cases h

/-- What the reader takes is passed over, by induction on the reader's fuel. -/
theorem skims_values (fuel : Nat) : ValueSkims fuel ∧ ElementsSkim fuel ∧ MembersSkim fuel := by
  induction fuel with
  | zero =>
    refine ⟨?_, ?_, ?_⟩
    · intro depth cs v rest h
      simp [readValue] at h
    · intro depth done cs v rest h
      simp [readElements] at h
    · intro depth done cs v rest h
      simp [readMembers] at h
  | succ fuel ih =>
    obtain ⟨hv, he, hm⟩ := ih
    exact ⟨.succ he hm, .succ hv he, .succ hv hm⟩

/-- A value is passed over, whatever fuel the reader had. -/
theorem skip_readValue {fuel depth : Nat} {cs rest : List Char} {v : Value}
    (h : readValue fuel depth cs = some (v, rest)) : skip (encode cs) = some (encode rest) := by
  have hle := length_le_encode cs
  exact (skims_values fuel).1 _ _ _ _ h _ (by omega)

end Skim

end Runwatch.Json
