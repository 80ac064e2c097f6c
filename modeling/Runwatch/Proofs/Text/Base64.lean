/-
Runwatch.Proofs.Text.Base64 — byte strings come back from their texts.

In the alphabet for addresses and headers a text of `n` bytes has a character
for each six bits, begun or whole, and no other character. The writer and the
reader take three bytes and four characters at a time, so the proofs follow
the cases of the writer: three bytes and more, two, one, and none.

  §1 Characters — six bits are read back (`value?_char`).
  §2 Texts      — `decode?_encode`, `length_encode`, `isHeaderChar_of_mem`.
-/
import Mathlib.Tactic.IntervalCases
import Runwatch.Proofs.Text.Utf8
import Runwatch.Text.Base64

namespace Runwatch.Text.Base64

/-! ## §1 Characters -/

/-- A letter or digit of ASCII, or one of the two marks that headers and
addresses leave alone. -/
def IsHeaderChar (c : Char) : Prop :=
  ('A' ≤ c ∧ c ≤ 'Z') ∨ ('a' ≤ c ∧ c ≤ 'z') ∨ ('0' ≤ c ∧ c ≤ '9') ∨ c = '-' ∨ c = '_'

instance (c : Char) : Decidable (IsHeaderChar c) := inferInstanceAs (Decidable (_ ∨ _))

/-- Six bits have one character. -/
theorem value?_char {n : Nat} (h : n < 64) : value? url (char url n) = some n := by
  interval_cases n <;> decide

theorem isHeaderChar_char {n : Nat} (h : n < 64) : IsHeaderChar (char url n) := by
  interval_cases n <;> decide

/-! ## §2 Texts -/

section

variable (x y z : UInt8)

/-- Three bytes are read out of their four characters. -/
theorem decodeFour?_bytes {n : Nat} (h : n = x.toNat * 65536 + y.toNat * 256 + z.toNat) :
    decodeFour? url (char url (n / 262144)) (char url (n / 4096 % 64)) (char url (n / 64 % 64))
      (char url (n % 64)) = some [x, y, z] := by
  have hx := x.toNat_lt
  have hy := y.toNat_lt
  have hz := z.toNat_lt
  have hbits : n / 262144 * 262144 + n / 4096 % 64 * 4096 + n / 64 % 64 * 64 + n % 64 = n := by
    omega
  simp only [decodeFour?, value?_char (n := n / 262144) (by omega),
    value?_char (n := n / 4096 % 64) (by omega), value?_char (n := n / 64 % 64) (by omega),
    value?_char (n := n % 64) (by omega), Option.bind_eq_bind, Option.bind_some, hbits]
  rw [Utf8.ofNat_eq (b := x) (by omega), Utf8.ofNat_eq (b := y) (by omega),
    Utf8.ofNat_eq (b := z) (by omega)]

/-- Two bytes are read out of three characters. -/
theorem decodeThree?_bytes {n : Nat} (h : n = x.toNat * 1024 + y.toNat * 4) :
    decodeThree? url (char url (n / 4096)) (char url (n / 64 % 64)) (char url (n % 64)) =
      some [x, y] := by
  have hx := x.toNat_lt
  have hy := y.toNat_lt
  have hbits : n / 4096 * 4096 + n / 64 % 64 * 64 + n % 64 = n := by omega
  have hspare : n % 4 = 0 := by omega
  simp only [decodeThree?, value?_char (n := n / 4096) (by omega),
    value?_char (n := n / 64 % 64) (by omega), value?_char (n := n % 64) (by omega),
    Option.bind_eq_bind, Option.bind_some, hbits, hspare, if_true]
  rw [Utf8.ofNat_eq (b := x) (by omega), Utf8.ofNat_eq (b := y) (by omega)]

/-- One byte is read out of two characters. -/
theorem decodeTwo?_bytes {n : Nat} (h : n = x.toNat * 16) :
    decodeTwo? url (char url (n / 64)) (char url (n % 64)) = some [x] := by
  have hx := x.toNat_lt
  have hbits : n / 64 * 64 + n % 64 = n := by omega
  have hspare : n % 16 = 0 := by omega
  simp only [decodeTwo?, value?_char (n := n / 64) (by omega),
    value?_char (n := n % 64) (by omega), Option.bind_eq_bind, Option.bind_some, hbits, hspare,
    if_true]
  rw [Utf8.ofNat_eq (b := x) (by omega)]

end

/-- Nothing fills up the end. -/
theorem padding_url (count : Nat) : padding url count = [] := rfl

/-- A byte string is read back from its text. -/
theorem decode?_encode (bytes : List UInt8) : decode? url (encode url bytes) = some bytes := by
  fun_induction encode url bytes with
  | case1 x y z rest n ih =>
    have hurl : ¬ (url.isPadded = true ∧ encode url rest = [] ∧ char url (n % 64) = '=') :=
      fun h => Bool.false_ne_true h.1
    rw [decode?, if_neg hurl, decodeFour?_bytes x y z rfl, ih]
    rfl
  | case2 x y n =>
    rw [← decodeThree?_bytes x y rfl]
    rfl
  | case3 x n =>
    rw [← decodeTwo?_bytes x rfl]
    rfl
  | case4 => rfl

/-- Four characters for three bytes, and no more at the end than are needed. -/
theorem length_encode (bytes : List UInt8) :
    (encode url bytes).length = (4 * bytes.length + 2) / 3 := by
  fun_induction encode url bytes with
  | case1 x y z rest n ih =>
    simp only [List.length_cons, ih]
    omega
  | case2 | case3 => simp only [padding_url, List.length_cons, List.length_nil]
  | case4 => rfl

theorem isHeaderChar_of_mem (bytes : List UInt8) : ∀ c ∈ encode url bytes, IsHeaderChar c := by
  have hlow (n : Nat) : IsHeaderChar (char url (n % 64)) :=
    isHeaderChar_char (Nat.mod_lt _ (by decide))
  fun_induction encode url bytes with
  | case1 x y z rest n ih =>
    have hn : n / 262144 < 64 := by
      have hx := x.toNat_lt
      have hy := y.toNat_lt
      have hz := z.toNat_lt
      omega
    simp only [List.forall_mem_cons]
    exact ⟨isHeaderChar_char hn, hlow _, hlow _, hlow _, ih⟩
  | case2 x y n =>
    have hn : n / 4096 < 64 := by
      have hx := x.toNat_lt
      have hy := y.toNat_lt
      omega
    simp only [List.forall_mem_cons]
    exact ⟨isHeaderChar_char hn, hlow _, hlow _, nofun⟩
  | case3 x n =>
    have hn : n / 64 < 64 := by
      have hx := x.toNat_lt
      omega
    simp only [List.forall_mem_cons]
    exact ⟨isHeaderChar_char hn, hlow _, nofun⟩
  | case4 => nofun

end Runwatch.Text.Base64
