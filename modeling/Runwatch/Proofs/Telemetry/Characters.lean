/-
Runwatch.Proofs.Telemetry.Characters — scanning bytes is scanning characters.

The four marks are ASCII, and no byte of a longer character is. So a byte
scanner goes through the bytes of a character as a character scanner goes
through the character, and `feed_encode` says of a whole text that the two
end in the same state and give the same spans, up to the encoding.

  §1 Plain symbols — a run of them is one step (`feed_plain`).
  §2 Marks         — those of a character and of its bytes
                     (`encodeChar_ascii`, `le_of_mem_encodeChar`).
  §3 Simulation    — `Scan.encoded`, `feed_encodeChar`, `feed_encode`.
-/
import Runwatch.Proofs.Telemetry.Feeding
import Runwatch.Proofs.Text.Utf8

namespace Runwatch.Telemetry

open Text.Utf8 (encode encodeChar)

/-! ## §1 Plain symbols -/

namespace Scan

variable {α : Type} {mark : α → Mark}

/-- The scanner behind a run of plain symbols: in a string no backslash is
pending, outside any span nothing is held. -/
def passed (s : Scan α) (run : List α) : Scan α :=
  if s.inString then { s with held := run.reverse ++ s.held, escaped := false }
  else if s.depth == 0 then s
  else { s with held := run.reverse ++ s.held }

theorem step_plain {a : α} (s : Scan α) (h : mark a = .plain) :
    s.step mark a = (s.passed [a], none) := by
  obtain ⟨held, depth, inString, escaped⟩ := s
  cases inString <;> cases escaped <;> simp [step, passed, h] <;> split <;> rfl

theorem passed_passed (s : Scan α) (u v : List α) :
    (s.passed u).passed v = s.passed (u ++ v) := by
  obtain ⟨held, depth, inString, escaped⟩ := s
  cases inString <;> by_cases hd : depth = 0 <;> simp [passed, hd]

theorem feed_plain {run : List α} (s : Scan α) (hne : run ≠ []) (h : ∀ a ∈ run, mark a = .plain) :
    s.feed mark run = (s.passed run, []) := by
  induction run generalizing s with
  | nil => exact absurd rfl hne
  | cons a rest ih =>
    rw [feed_cons, step_plain s (h a (by simp))]
    by_cases hrest : rest = []
    · subst hrest; rfl
    · rw [ih _ hrest fun b hb => h b (by simp [hb]), passed_passed]; rfl

end Scan

/-! ## §2 Marks -/

/-- A byte beyond ASCII is plain. -/
theorem byteMark_of_le {b : UInt8} (h : 0x80 ≤ b.toNat) : byteMark b = .plain := by
  have hne : ∀ n : UInt8, n.toNat < 0x80 → ¬ b = n := by
    intro n hn heq
    subst heq
    omega
  simp [byteMark, hne 0x7B (by decide), hne 0x7D (by decide), hne 0x22 (by decide),
    hne 0x5C (by decide)]

/-- The characters of a class without braces, quote and backslash are
plain. -/
theorem charMark_of_class (p : Char → Bool) {c : Char} (hc : p c = true)
    (hopening : p '\x7b' = false) (hclosing : p '\x7d' = false) (hquote : p '"' = false)
    (hbackslash : p '\\' = false) : charMark c = .plain := by
  have hne : ∀ d, p d = false → ¬ c = d := by
    rintro d hd rfl
    rw [hc] at hd
    cases hd
  simp [charMark, hne _ hopening, hne _ hclosing, hne _ hquote, hne _ hbackslash]

/-- A character beyond ASCII is plain. -/
theorem charMark_of_le {c : Char} (h : 0x80 ≤ c.toNat) : charMark c = .plain :=
  charMark_of_class (fun c => decide (0x80 ≤ c.toNat)) (decide_eq_true h) rfl rfl rfl rfl

/-- A character of ASCII is one byte, of the same mark. -/
theorem encodeChar_ascii {c : Char} (h : c.toNat < 0x80) :
    ∃ b, encodeChar c = [b] ∧ byteMark b = charMark c := by
  refine ⟨UInt8.ofNat c.toNat, by rw [encodeChar, if_pos h], ?_⟩
  have heq : ∀ d : Char, d.toNat < 0x80 →
      (UInt8.ofNat c.toNat == UInt8.ofNat d.toNat) = (c == d) := by
    intro d hd
    rw [Bool.eq_iff_iff, beq_iff_eq, beq_iff_eq, ← UInt8.toNat_inj, ← Char.toNat_inj]
    simp only [UInt8.toNat_ofNat']
    omega
  have hopening : (UInt8.ofNat c.toNat == 0x7B) = (c == '\x7b') := heq '\x7b' (by decide)
  have hclosing : (UInt8.ofNat c.toNat == 0x7D) = (c == '\x7d') := heq '\x7d' (by decide)
  have hquote : (UInt8.ofNat c.toNat == 0x22) = (c == '"') := heq '"' (by decide)
  have hbackslash : (UInt8.ofNat c.toNat == 0x5C) = (c == '\\') := heq '\\' (by decide)
  rw [byteMark, charMark, hopening, hclosing, hquote, hbackslash]

/-- Every byte of a longer character is beyond ASCII. -/
theorem le_of_mem_encodeChar {c : Char} (h : 0x80 ≤ c.toNat) {b : UInt8} (hb : b ∈ encodeChar c) :
    0x80 ≤ b.toNat := by
  have hlast : c.toNat < 0x110000 := by
    have hvalid := c.valid
    simp only [UInt32.isValidChar, Nat.isValidChar] at hvalid
    change c.val.toNat < _
    omega
  rw [encodeChar, if_neg (by omega)] at hb
  split at hb
  · simp at hb
    rcases hb with rfl | rfl <;> simp <;> omega
  · split at hb
    · simp at hb
      rcases hb with rfl | rfl | rfl <;> simp <;> omega
    · simp at hb
      rcases hb with rfl | rfl | rfl | rfl <;> simp <;> omega

theorem encodeChar_ne_nil (c : Char) : encodeChar c ≠ [] := by
  rw [encodeChar]
  split
  · simp
  · split
    · simp
    · split <;> simp

/-! ## §3 Simulation -/

namespace Scan

/-- The byte scanner that holds the bytes of what a character scanner
holds, and stands where that one stands. -/
def encoded (s : Scan Char) : Scan UInt8 where
  held := (encode s.buffer).reverse
  depth := s.depth
  inString := s.inString
  escaped := s.escaped

/-- The bytes of one character. -/
theorem feed_encodeChar (s : Scan Char) (c : Char) :
    s.encoded.feed byteMark (encodeChar c)
      = ((s.step charMark c).1.encoded, (s.step charMark c).2.toList.map encode) := by
  obtain ⟨held, depth, inString, escaped⟩ := s
  by_cases h : c.toNat < 0x80
  · obtain ⟨b, hb, hmark⟩ := encodeChar_ascii h
    rw [hb, feed_cons]
    simp only [step, encoded, buffer, hmark]
    cases inString with
    | true => cases escaped <;> cases charMark c <;> simp [hb]
    | false =>
      cases charMark c with
      | closing => rcases depth with _ | _ | depth <;> simp [hb]
      | opening => simp [hb]
      | quote | backslash | plain => cases depth <;> simp [hb]
  · have hplain : ∀ b ∈ encodeChar c, byteMark b = .plain :=
      fun b hb => byteMark_of_le (le_of_mem_encodeChar (by omega) hb)
    rw [feed_plain _ (encodeChar_ne_nil c) hplain, step_plain _ (charMark_of_le (by omega))]
    cases inString <;> by_cases hd : depth = 0 <;> simp [passed, encoded, buffer, hd]

/-- Scanning the bytes of a text ends where scanning its characters ends,
and gives the bytes of the same spans. -/
theorem feed_encode (s : Scan Char) (cs : List Char) :
    s.encoded.feed byteMark (encode cs)
      = ((s.feed charMark cs).1.encoded, (s.feed charMark cs).2.map encode) := by
  induction cs generalizing s with
  | nil => rfl
  | cons c rest ih =>
    rw [Text.Utf8.encode_cons, feed_append, feed_encodeChar, ih, feed_cons]
    simp

end Scan

end Runwatch.Telemetry
