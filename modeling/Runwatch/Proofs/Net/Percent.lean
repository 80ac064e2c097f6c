/-
Runwatch.Proofs.Net.Percent — what a written form stands for.

A percent sign with two digits behind it stands for one byte, every other
character for its own bytes. Writing a text down does not escape a percent
sign, so what is read back is what the text itself would be read as
(`percentDecode_percentEncode`), and that is the text only if there is no such
sign in it (`percentDecode_or`).

  §1 Escapes — the two digits behind a percent sign (`escape?`), and induction
               over a text with its escapes (`percent_induction`).
  §2 Writing — reading back what was written.
  §3 Length  — an escape stands for less than it takes.
  §4 Marks   — a character that is no part of an escape parts a text.
-/
import Runwatch.Net.Percent
import Runwatch.Proofs.Telemetry.Characters
import Runwatch.Proofs.Text.Utf8

namespace Runwatch.Net

open Text (hexValue? upperHexDigit)
open Text.Utf8 (encode encodeChar encode_cons)

/-! ## §1 Escapes -/

theorem hexValue?_upperHexDigit {n : Nat} (h : n < 16) : hexValue? (upperHexDigit n) = some n := by
  have hall : ∀ n < 16, hexValue? (upperHexDigit n) = some n := by decide
  exact hall n h

/-- A digit is a character of ASCII. -/
theorem toNat_of_hexValue? {c : Char} {n : Nat} (h : hexValue? c = some n) : c.toNat < 0x80 := by
  have hle {a b : Char} (h : a ≤ b) : a.toNat ≤ b.toNat := h
  unfold hexValue? at h
  split at h
  · next hdigit => exact Nat.lt_of_le_of_lt (hle hdigit.2) (by decide)
  · split at h
    · next hlower => exact Nat.lt_of_le_of_lt (hle hlower.2) (by decide)
    · split at h
      · next hupper => exact Nat.lt_of_le_of_lt (hle hupper.2) (by decide)
      · cases h

/-- The byte that two digits write, with what follows them. -/
def escape? : List Char → Option (UInt8 × List Char)
  | a :: b :: rest =>
    match hexValue? a, hexValue? b with
    | some hi, some lo => some (UInt8.ofNat (16 * hi + lo), rest)
    | _, _ => none
  | _ => none

theorem escape?_eq_some {cs rest : List Char} {byte : UInt8} :
    escape? cs = some (byte, rest) ↔ ∃ a b hi lo, cs = a :: b :: rest ∧
      hexValue? a = some hi ∧ hexValue? b = some lo ∧ byte = UInt8.ofNat (16 * hi + lo) := by
  constructor
  · intro h
    unfold escape? at h
    split at h
    · split at h
      · next hi lo ha hb =>
        obtain ⟨rfl, rfl⟩ := Prod.mk.inj (Option.some.inj h)
        exact ⟨_, _, hi, lo, rfl, ha, hb, rfl⟩
      · cases h
    · cases h
  · rintro ⟨a, b, hi, lo, rfl, ha, hb, rfl⟩
    simp only [escape?, ha, hb]

/-- A character that is no digit ends an escape. -/
theorem escape?_append_mark {mark : Char} (hmark : hexValue? mark = none) (cs rest : List Char) :
    escape? (cs ++ mark :: rest) =
      (escape? cs).map fun found => (found.1, found.2 ++ mark :: rest) := by
  match cs with
  | [] => cases rest <;> simp [escape?, hmark]
  | [a] => simp [escape?, hmark]
  | a :: b :: cs =>
    simp only [List.cons_append, escape?]
    cases hexValue? a <;> cases hexValue? b <;> rfl

theorem percentDecode_percent (cs : List Char) :
    percentDecode ('%' :: cs) =
      match escape? cs with
      | some (byte, rest) => byte :: percentDecode rest
      | none => 0x25 :: percentDecode cs := by
  match cs with
  | [] => rfl
  | [a] => rfl
  | a :: b :: rest =>
    rw [percentDecode]
    simp only [escape?]
    cases hexValue? a <;> cases hexValue? b <;> rfl

theorem percentDecode_cons {c : Char} (h : c ≠ '%') (rest : List Char) :
    percentDecode (c :: rest) = encodeChar c ++ percentDecode rest := by
  rw [percentDecode]
  exact fun _ _ _ heq => absurd heq h

theorem percentDecode_escape {cs rest : List Char} {byte : UInt8}
    (h : escape? cs = some (byte, rest)) : percentDecode ('%' :: cs) = byte :: percentDecode rest := by
  rw [percentDecode_percent, h]

theorem percentDecode_bare {cs : List Char} (h : escape? cs = none) :
    percentDecode ('%' :: cs) = 0x25 :: percentDecode cs := by
  rw [percentDecode_percent, h]

/-- A text is empty, or begins with an escape, with a percent sign that begins
none, or with another character. -/
@[elab_as_elim]
theorem percent_induction {motive : List Char → Prop} (nil : motive [])
    (plain : ∀ c rest, c ≠ '%' → motive rest → motive (c :: rest))
    (bare : ∀ rest, escape? rest = none → motive rest → motive ('%' :: rest))
    (escape : ∀ cs byte rest, escape? cs = some (byte, rest) → motive rest → motive ('%' :: cs))
    (cs : List Char) : motive cs := by
  match cs with
  | [] => exact nil
  | c :: rest =>
    by_cases hc : c = '%'
    · subst hc
      cases hescape : escape? rest with
      | none => exact bare rest hescape (percent_induction nil plain bare escape rest)
      | some found =>
        obtain ⟨byte, later⟩ := found
        obtain ⟨a, b, hi, lo, rfl, -, -, -⟩ := escape?_eq_some.mp hescape
        exact escape _ byte later hescape (percent_induction nil plain bare escape later)
    · exact plain c rest hc (percent_induction nil plain bare escape rest)
termination_by cs.length

/-! ## §2 Writing -/

theorem percentDecode_percentByte (byte : UInt8) (rest : List Char) :
    percentDecode (percentByte byte ++ rest) = byte :: percentDecode rest := by
  have hbyte := byte.toNat_lt
  have hvalue : 16 * (byte.toNat / 16) + byte.toNat % 16 = byte.toNat := Nat.div_add_mod _ _
  refine percentDecode_escape (escape?_eq_some.mpr ?_)
  refine ⟨_, _, _, _, rfl, hexValue?_upperHexDigit (by omega), hexValue?_upperHexDigit (by omega), ?_⟩
  rw [hvalue, UInt8.ofNat_toNat]

theorem percentDecode_flatMap_percentByte (bytes : List UInt8) (rest : List Char) :
    percentDecode (bytes.flatMap percentByte ++ rest) = bytes ++ percentDecode rest := by
  induction bytes with
  | nil => rfl
  | cons byte bytes ih =>
    rw [List.flatMap_cons, List.append_assoc, percentDecode_percentByte, ih, List.cons_append]

/-- A set that leaves percent signs and digits as they are. -/
structure Spares (set : EncodeSet) : Prop where
  percent : set '%' = false
  digit : ∀ c n, hexValue? c = some n → set c = false

section

variable {set : EncodeSet}

theorem percentEncode_cons (c : Char) (cs : List Char) :
    percentEncode set (c :: cs) =
      (if c.toNat < 0x80 && !set c then [c] else (encodeChar c).flatMap percentByte) ++
        percentEncode set cs := List.flatMap_cons

theorem Spares.percentEncode_percent (h : Spares set) (cs : List Char) :
    percentEncode set ('%' :: cs) = '%' :: percentEncode set cs := by
  rw [percentEncode_cons, h.percent]
  rfl

theorem Spares.percentEncode_digit (h : Spares set) {c : Char} {n : Nat}
    (hdigit : hexValue? c = some n) (cs : List Char) :
    percentEncode set (c :: cs) = c :: percentEncode set cs := by
  rw [percentEncode_cons, h.digit c n hdigit, decide_eq_true (toNat_of_hexValue? hdigit)]
  rfl

/-- What does not begin with a digit is not written so either. -/
theorem percentEncode_not_digit (set : EncodeSet) {c : Char} (hc : hexValue? c = none) (cs : List Char) :
    ∃ first rest, percentEncode set (c :: cs) = first :: rest ∧ hexValue? first = none := by
  rw [percentEncode_cons]
  split
  · exact ⟨c, _, rfl, hc⟩
  · obtain ⟨byte, bytes, hbytes⟩ := List.exists_cons_of_ne_nil (Telemetry.encodeChar_ne_nil c)
    rw [hbytes]
    exact ⟨'%', _, rfl, by decide⟩

/-- Writing makes no escape and breaks none. -/
theorem Spares.escape?_percentEncode (h : Spares set) (cs : List Char) :
    escape? (percentEncode set cs) =
      (escape? cs).map fun found => (found.1, percentEncode set found.2) := by
  have hshort {first : Char} {rest : List Char} (hfirst : hexValue? first = none) :
      escape? (first :: rest) = none := by
    cases rest <;> simp [escape?, hfirst]
  have hsecond {a first : Char} {rest : List Char} (hfirst : hexValue? first = none) :
      escape? (a :: first :: rest) = none := by
    simp [escape?, hfirst]
  match cs with
  | [] => rfl
  | a :: cs =>
    cases ha : hexValue? a with
    | none =>
      obtain ⟨first, rest, heq, hfirst⟩ := percentEncode_not_digit set ha cs
      rw [heq, hshort hfirst, hshort ha]
      rfl
    | some hi =>
      rw [h.percentEncode_digit ha]
      match cs with
      | [] => rfl
      | b :: cs =>
        cases hb : hexValue? b with
        | none =>
          obtain ⟨first, rest, heq, hfirst⟩ := percentEncode_not_digit set hb cs
          rw [heq, hsecond hfirst, hsecond hb]
          rfl
        | some lo =>
          rw [h.percentEncode_digit hb]
          simp only [escape?, ha, hb, Option.map_some]

/-- **Writing changes nothing of what is read.** -/
theorem Spares.percentDecode_percentEncode (h : Spares set) (cs : List Char) :
    percentDecode (percentEncode set cs) = percentDecode cs := by
  induction cs using percent_induction with
  | nil => rfl
  | plain c rest hc ih =>
    rw [percentEncode_cons, percentDecode_cons hc]
    split
    · rw [List.singleton_append, percentDecode_cons hc, ih]
    · rw [percentDecode_flatMap_percentByte, ih]
  | bare rest hnone ih =>
    have hwritten : escape? (percentEncode set rest) = none := by
      rw [h.escape?_percentEncode, hnone]
      rfl
    rw [h.percentEncode_percent, percentDecode_bare hwritten, percentDecode_bare hnone, ih]
  | escape cs byte rest hsome ih =>
    have hwritten : escape? (percentEncode set cs) = some (byte, percentEncode set rest) := by
      rw [h.escape?_percentEncode, hsome]
      rfl
    rw [h.percentEncode_percent, percentDecode_escape hwritten, percentDecode_escape hsome, ih]

end

/-! ## §3 Length -/

theorem length_encodeChar_pos (c : Char) : 0 < (encodeChar c).length :=
  List.length_pos_iff.mpr (Telemetry.encodeChar_ne_nil c)

/-- There is an escape in a text. -/
def HasEscape (cs : List Char) : Prop :=
  ∃ before after, cs = before ++ '%' :: after ∧ escape? after ≠ none

theorem not_hasEscape_nil : ¬ HasEscape [] := by
  rintro ⟨before, after, heq, -⟩
  simp at heq

theorem hasEscape_cons {c : Char} {cs : List Char} :
    HasEscape (c :: cs) ↔ c = '%' ∧ escape? cs ≠ none ∨ HasEscape cs := by
  constructor
  · rintro ⟨before, after, heq, hescape⟩
    cases before with
    | nil =>
      obtain ⟨rfl, rfl⟩ := List.cons.inj heq
      exact .inl ⟨rfl, hescape⟩
    | cons first before =>
      obtain ⟨-, rfl⟩ := List.cons.inj heq
      exact .inr ⟨before, after, rfl, hescape⟩
  · rintro (⟨rfl, hescape⟩ | ⟨before, after, rfl, hescape⟩)
    · exact ⟨[], cs, rfl, hescape⟩
    · exact ⟨c :: before, after, rfl, hescape⟩

/-- A text is read as its own bytes, or there is an escape in it and fewer
bytes are read. -/
theorem percentDecode_or (cs : List Char) :
    percentDecode cs = encode cs ∧ ¬ HasEscape cs ∨
      (percentDecode cs).length < (encode cs).length ∧ HasEscape cs := by
  induction cs using percent_induction with
  | nil => exact .inl ⟨rfl, not_hasEscape_nil⟩
  | plain c rest hc ih =>
    rw [percentDecode_cons hc, encode_cons, hasEscape_cons]
    rcases ih with ⟨heq, hnone⟩ | ⟨hlt, hsome⟩
    · exact .inl ⟨by rw [heq], by simp [hc, hnone]⟩
    · refine .inr ⟨?_, .inr hsome⟩
      rw [List.length_append, List.length_append]
      omega
  | bare rest hescape ih =>
    have hsign : encodeChar '%' = [0x25] := rfl
    rw [percentDecode_bare hescape, encode_cons, hsign, hasEscape_cons]
    rcases ih with ⟨heq, hnone⟩ | ⟨hlt, hsome⟩
    · exact .inl ⟨by rw [heq, List.singleton_append], by simp [hescape, hnone]⟩
    · refine .inr ⟨?_, .inr hsome⟩
      rw [List.length_append, List.length_cons, List.length_singleton]
      omega
  | escape cs byte rest hescape ih =>
    refine .inr ⟨?_, hasEscape_cons.mpr (.inl ⟨rfl, by simp [hescape]⟩)⟩
    have hrest : (percentDecode rest).length ≤ (encode rest).length := by
      rcases ih with ⟨heq, -⟩ | ⟨hlt, -⟩
      · exact Nat.le_of_eq (congrArg List.length heq)
      · exact Nat.le_of_lt hlt
    obtain ⟨a, b, hi, lo, rfl, -, -, -⟩ := escape?_eq_some.mp hescape
    have ha := length_encodeChar_pos a
    have hb := length_encodeChar_pos b
    rw [percentDecode_escape hescape]
    simp only [encode_cons, List.length_append, List.length_cons]
    omega

theorem length_percentDecode_le (cs : List Char) :
    (percentDecode cs).length ≤ (encode cs).length := by
  rcases percentDecode_or cs with ⟨heq, -⟩ | ⟨hlt, -⟩
  · exact Nat.le_of_eq (congrArg List.length heq)
  · exact Nat.le_of_lt hlt

theorem percentDecode_ne_nil {cs : List Char} (h : cs ≠ []) : percentDecode cs ≠ [] := by
  obtain ⟨c, rest, rfl⟩ := List.exists_cons_of_ne_nil h
  by_cases hc : c = '%'
  · subst hc
    rw [percentDecode_percent]
    split <;> exact List.cons_ne_nil _ _
  · rw [percentDecode_cons hc]
    exact List.append_ne_nil_of_left_ne_nil (Telemetry.encodeChar_ne_nil c) _

/-! ## §4 Marks -/

/-- At a character that is neither a percent sign nor a digit, what is in
front of it is read by itself. -/
theorem percentDecode_append_mark {mark : Char} (hmark : hexValue? mark = none)
    (hsign : mark ≠ '%') (cs rest : List Char) :
    percentDecode (cs ++ mark :: rest) =
      percentDecode cs ++ encodeChar mark ++ percentDecode rest := by
  induction cs using percent_induction with
  | nil => exact percentDecode_cons hsign rest
  | plain c cs hc ih =>
    rw [List.cons_append, percentDecode_cons hc, percentDecode_cons hc, ih]
    simp only [List.append_assoc]
  | bare cs hescape ih =>
    have hwhole : escape? (cs ++ mark :: rest) = none := by
      rw [escape?_append_mark hmark, hescape]
      rfl
    rw [List.cons_append, percentDecode_bare hwhole, percentDecode_bare hescape, ih]
    rfl
  | escape cs byte later hescape ih =>
    have hwhole : escape? (cs ++ mark :: rest) = some (byte, later ++ mark :: rest) := by
      rw [escape?_append_mark hmark, hescape]
      rfl
    rw [List.cons_append, percentDecode_escape hwhole, percentDecode_escape hescape, ih]
    rfl

end Runwatch.Net
