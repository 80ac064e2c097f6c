/-
Runwatch.Proofs.Text.ByteOrder — texts are ordered as their bytes are.

Comparing two texts character by character gives the same as comparing their
bytes: the first byte tells how long a character is, longer characters come
after shorter ones, and within one length the bytes hold the digits of the
number of the character, most significant first (`encodeChar_lt`).
-/
import Runwatch.Proofs.Text.Utf8

namespace Runwatch.Text.Utf8

/-- Bytes are compared as the numbers they hold, one after the other. -/
theorem cons_lt_cons {m n : Nat} (hm : m < 256) (hn : n < 256) {xs ys : List UInt8} :
    UInt8.ofNat m :: xs < UInt8.ofNat n :: ys ↔ m < n ∨ m = n ∧ xs < ys := by
  rw [List.cons_lt_cons_iff, UInt8.lt_iff_toNat_lt, ← UInt8.toNat_inj,
    UInt8.toNat_ofNat_of_lt' hm, UInt8.toNat_ofNat_of_lt' hn]

/-- The bytes of a character come before those of a later one, whatever
stands behind them. -/
theorem encodeChar_lt {c d : Char} (h : c < d) (xs ys : List UInt8) :
    encodeChar c ++ xs < encodeChar d ++ ys := by
  have hlt : c.toNat < d.toNat := h
  rcases encodeChar_cases c with ⟨hc, hcs⟩ | ⟨hc, hc', hcs⟩ | ⟨hc, hc', hcs⟩ | ⟨hc, hc', hcs⟩ <;>
  rcases encodeChar_cases d with ⟨hd, hds⟩ | ⟨hd, hd', hds⟩ | ⟨hd, hd', hds⟩ | ⟨hd, hd', hds⟩ <;>
  -- The lead bytes of different lengths lie apart; for equal lengths the
  -- digits of the two numbers are compared.
  · rw [hcs, hds]
    simp (disch := omega) only [List.cons_append, List.nil_append, cons_lt_cons]
    omega

theorem encode_lt {cs ds : List Char} (h : cs < ds) : encode cs < encode ds := by
  induction cs generalizing ds with
  | nil =>
    cases ds with
    | nil => exact absurd h (List.lt_irrefl [])
    | cons d ds =>
      rw [encode_cons]
      rcases encodeChar_cases d with ⟨-, hds⟩ | ⟨-, -, hds⟩ | ⟨-, -, hds⟩ | ⟨-, -, hds⟩ <;>
      · rw [hds]
        exact List.nil_lt_cons _ _
  | cons c cs ih =>
    cases ds with
    | nil => exact absurd h (List.not_lt_nil _)
    | cons d ds =>
      rw [encode_cons, encode_cons]
      cases List.cons_lt_cons_iff.mp h with
      | inl hlt => exact encodeChar_lt hlt _ _
      | inr hrest => exact hrest.1 ▸ List.append_left_lt (ih hrest.2)

/-- Comparing texts is comparing their bytes. -/
theorem bytes_lt_bytes {a b : String} : bytes a < bytes b ↔ a < b := by
  constructor
  · intro h
    rw [String.lt_iff]
    refine Decidable.by_contra fun hnot => ?_
    cases List.le_iff_lt_or_eq.mp (List.not_lt.mp hnot) with
    | inl hgt => exact List.lt_asymm h (encode_lt hgt)
    | inr heq =>
      have hsame : bytes b = bytes a := congrArg encode heq
      rw [hsame] at h
      exact List.lt_irrefl _ h
  · intro h
    exact encode_lt (String.lt_iff.mp h)

end Runwatch.Text.Utf8
