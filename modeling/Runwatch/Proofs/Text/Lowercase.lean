/-
Runwatch.Proofs.Text.Lowercase — which texts have an English word for their
lowercase.

The lowercase of a letter may be several characters, and may depend on the
letters around it. Even so a word of small letters is the lowercase of its own
spellings only, its letters small or capital. The one exception among the
letters is `k`: the sign of the unit kelvin has it for its lowercase.

The main statement is `lowerFrom_eq_iff`.
-/
import Mathlib.Data.List.Forall2
import Runwatch.Text.Lowercase

namespace Runwatch.Text

/-- `spelled` is `word`, with capitals for some of its letters. -/
def Cased (word spelled : List Char) : Prop :=
  List.Forall₂ (fun w c => c = w ∨ c = w.toUpper) word spelled

/-- A small letter of ASCII other than `k`. -/
def IsOwn (w : Char) : Prop := w.isLower = true ∧ w ≠ 'k'

instance (w : Char) : Decidable (IsOwn w) := inferInstanceAs (Decidable (_ ∧ _))

theorem isLower_iff (c : Char) : c.isLower = true ↔ 97 ≤ c.toNat ∧ c.toNat ≤ 122 := by
  show (decide (c.val ≥ 'a'.val) && decide (c.val ≤ 'z'.val)) = true ↔ _
  simp only [Bool.and_eq_true, decide_eq_true_eq, ge_iff_le, UInt32.le_iff_toNat_le]
  exact Iff.rfl

theorem toNat_toLower (c : Char) :
    c.toLower.toNat = if 65 ≤ c.toNat ∧ c.toNat ≤ 90 then c.toNat + 32 else c.toNat := by
  have hcapital : c.val ≥ 'A'.val ∧ c.val ≤ 'Z'.val ↔ 65 ≤ c.toNat ∧ c.toNat ≤ 90 := by
    simp only [ge_iff_le, UInt32.le_iff_toNat_le]
    exact Iff.rfl
  show (dite (c.val ≥ 'A'.val ∧ c.val ≤ 'Z'.val) _ _ : Char).toNat = _
  by_cases h : 65 ≤ c.toNat ∧ c.toNat ≤ 90
  · rw [dif_pos (hcapital.mpr h), if_pos h]
    show (c.val + ('a'.val - 'A'.val)).toNat = c.toNat + 32
    have hdiff : ('a'.val - 'A'.val).toNat = 32 := by decide
    rw [UInt32.toNat_add, hdiff, ← Char.toNat]
    omega
  · rw [dif_neg (mt hcapital.mp h), if_neg h]

theorem toNat_toUpper (c : Char) :
    c.toUpper.toNat = if 97 ≤ c.toNat ∧ c.toNat ≤ 122 then c.toNat - 32 else c.toNat := by
  have hsmall : 'a'.val ≤ c.val ∧ c.val ≤ 'z'.val ↔ 97 ≤ c.toNat ∧ c.toNat ≤ 122 := by
    simp only [UInt32.le_iff_toNat_le]
    exact Iff.rfl
  show (dite ('a'.val ≤ c.val ∧ c.val ≤ 'z'.val) _ _ : Char).toNat = _
  by_cases h : 97 ≤ c.toNat ∧ c.toNat ≤ 122
  · rw [dif_pos (hsmall.mpr h), if_pos h]
    show (c.val + ('A'.val - 'a'.val)).toNat = c.toNat - 32
    have hdiff : ('A'.val - 'a'.val).toNat = 2 ^ 32 - 32 := by decide
    rw [UInt32.toNat_add, hdiff, ← Char.toNat]
    omega
  · rw [dif_neg (mt hsmall.mp h), if_neg h]

/-- Two characters have a small letter for their lowercase in ASCII: itself
and its capital. -/
theorem toLower_eq_iff {w : Char} (hw : w.isLower = true) (c : Char) :
    c.toLower = w ↔ c = w ∨ c = w.toUpper := by
  rw [isLower_iff] at hw
  simp only [← Char.toNat_inj, toNat_toLower, toNat_toUpper, if_pos hw]
  split <;> omega

/-- The capital of a small letter is a character of ASCII as well. -/
theorem toNat_of_cased {w c : Char} (hw : w.isLower = true) (h : c = w ∨ c = w.toUpper) :
    c.toNat < 0x80 := by
  rw [isLower_iff] at hw
  rw [← Char.toNat_inj, ← Char.toNat_inj, toNat_toUpper, if_pos hw] at h
  omega

theorem Cased.ascii {word spelled : List Char} (hword : ∀ w ∈ word, w.isLower = true)
    (h : Cased word spelled) : ∀ c ∈ spelled, c.toNat < 0x80 := by
  induction h with
  | nil => nofun
  | cons hc _ ih =>
    obtain ⟨hw, hword⟩ := List.forall_mem_cons.mp hword
    exact List.forall_mem_cons.mpr ⟨toNat_of_cased hw hc, ih hword⟩

/-! ## Beyond ASCII -/

/-- No run of the table leads into ASCII, but for the letters of ASCII and the
one sign that stands for `k`. -/
theorem lowercaseRuns_image : ∀ run ∈ lowercaseRuns,
    run.2.1 < 0x80 ∨ 0x80 ≤ run.2.2.2 ∨ run.1 = run.2.1 ∧ run.2.2.2 = 0x6B := by
  decide +kernel

theorem lowerCode?_beyond {n m : Nat} (hn : 0x80 ≤ n) (h : lowerCode? n = some m) :
    0x80 ≤ m ∨ m = 0x6B := by
  obtain ⟨⟨first, last, stride, image⟩, hrun, h⟩ := List.exists_of_findSome?_eq_some h
  have himage := lowercaseRuns_image _ hrun
  simp only [Option.ite_none_right_eq_some, Bool.and_eq_true, decide_eq_true_eq,
    Option.some.injEq] at h himage
  omega

theorem not_isOwn_ofNat {m : Nat} (h : 0x80 ≤ m ∨ m = 0x6B) : ¬ IsOwn (Char.ofNat m) := by
  rcases h with h | rfl
  · by_cases hvalid : m.isValidChar
    · have hm : (Char.ofNat m).toNat = m := by
        rw [Char.ofNat, dif_pos hvalid]
        rfl
      rw [IsOwn, isLower_iff, hm]
      omega
    · rw [Char.ofNat, dif_neg hvalid]
      decide
  · decide

/-- Something in the lowercase of a character beyond ASCII is no letter of a
plain word. -/
theorem exists_not_isOwn {c : Char} (hc : 0x80 ≤ c.toNat) : ∃ d ∈ lowerChar c, ¬ IsOwn d := by
  have hbeyond : ¬ c.toNat < 0x80 := by omega
  rw [lowerChar, if_neg hbeyond]
  split
  · exact ⟨'\u0307', by simp, by decide⟩
  · split
    case h_1 m hm => exact ⟨_, List.mem_singleton_self _, not_isOwn_ofNat (lowerCode?_beyond hc hm)⟩
    case h_2 =>
      refine ⟨c, List.mem_singleton_self c, fun hown => ?_⟩
      have hsmall := (isLower_iff c).mp hown.1
      omega

/-- The lowercase of a character within a text. -/
def imageIn (before : List Char) (c : Char) (rest : List Char) : List Char :=
  if c == 'Σ' then if meetsCased before && !meetsCased rest then ['ς'] else ['σ']
  else lowerChar c

theorem lowerFrom_cons (before : List Char) (c : Char) (rest : List Char) :
    lowerFrom before (c :: rest) = imageIn before c rest ++ lowerFrom (c :: before) rest := rfl

theorem imageIn_ascii {c : Char} (hc : c.toNat < 0x80) (before rest : List Char) :
    imageIn before c rest = [c.toLower] := by
  have hsigma : (c == 'Σ') = false := by
    rw [beq_eq_false_iff_ne]
    rintro rfl
    exact absurd hc (by decide)
  rw [imageIn, hsigma, lowerChar, if_pos hc]
  rfl

theorem exists_imageIn_beyond {c : Char} (hc : 0x80 ≤ c.toNat) (before rest : List Char) :
    ∃ d ∈ imageIn before c rest, ¬ IsOwn d := by
  unfold imageIn
  split
  · split
    · exact ⟨'ς', by simp, by decide⟩
    · exact ⟨'σ', by simp, by decide⟩
  · exact exists_not_isOwn hc

/-- **A plain word is the lowercase of its own spellings only.** -/
theorem lowerFrom_eq_iff {word : List Char} (hword : ∀ w ∈ word, IsOwn w)
    (before spelled : List Char) : lowerFrom before spelled = word ↔ Cased word spelled := by
  induction spelled generalizing before word with
  | nil => cases word <;> simp [lowerFrom, Cased]
  | cons c rest ih =>
    rw [lowerFrom_cons]
    by_cases hc : c.toNat < 0x80
    · rw [imageIn_ascii hc]
      cases word with
      | nil => simp [Cased]
      | cons w word =>
        obtain ⟨hw, hword⟩ := List.forall_mem_cons.mp hword
        rw [List.singleton_append, List.cons.injEq, toLower_eq_iff hw.1, ih hword]
        simp only [Cased, List.forall₂_cons]
    · constructor
      · intro h
        obtain ⟨d, hd, hnot⟩ := exists_imageIn_beyond (Nat.le_of_not_lt hc) before rest
        exact absurd (hword d (h ▸ List.mem_append_left _ hd)) hnot
      · intro h
        exact absurd (h.ascii (fun w hw => (hword w hw).1) c List.mem_cons_self) hc

end Runwatch.Text
