/-
Runwatch.Proofs.Text.Blank — texts between blanks.

Trimming takes a text apart into the blanks at its ends and what stands
between them, and a text without any blank is what stands between the blanks
that are put around it. No digit is blank, so that a number is found at once
where blanks are passed over.

What stands between the blanks may have others inside; it is known by having
none at its ends (`Tight`), and trimming finds just that (`trimsTo_iff`).
-/
import Mathlib.Data.List.TakeWhile
import Runwatch.Proofs.Text.Decimal
import Runwatch.Text.Blank

namespace Runwatch.Text

/-- Nothing but blanks. -/
def Blanks (cs : List Char) : Prop := ∀ c ∈ cs, isBlank c = true

/-- No blank at all. -/
def Solid (cs : List Char) : Prop := ∀ c ∈ cs, isBlank c = false

instance (cs : List Char) : Decidable (Blanks cs) := List.decidableBAll _ cs

instance (cs : List Char) : Decidable (Solid cs) := List.decidableBAll _ cs

/-- A text stands between the blanks that trimming removes. -/
theorem exists_trimBlanks (cs : List Char) :
    ∃ left right, Blanks left ∧ Blanks right ∧ cs = left ++ trimBlanks cs ++ right := by
  have hends : ∀ ds : List Char, Blanks (ds.takeWhile isBlank) :=
    fun ds c hc => List.mem_takeWhile_imp hc
  refine ⟨cs.takeWhile isBlank, ((trimLeft cs).reverse.takeWhile isBlank).reverse, hends cs,
    fun c hc => hends _ c (List.mem_reverse.mp hc), ?_⟩
  have hright : trimBlanks cs ++ ((trimLeft cs).reverse.takeWhile isBlank).reverse =
      trimLeft cs := by
    rw [trimBlanks, trimRight, ← List.reverse_append, List.takeWhile_append_dropWhile,
      List.reverse_reverse]
  rw [List.append_assoc, hright, trimLeft, List.takeWhile_append_dropWhile]

theorem trimLeft_cons {c : Char} (h : isBlank c = false) (cs : List Char) :
    trimLeft (c :: cs) = c :: cs := List.dropWhile_cons_of_neg (by simp [h])

theorem Solid.trimLeft {core : List Char} (h : Solid core) : trimLeft core = core := by
  cases core with
  | nil => rfl
  | cons c cs => exact trimLeft_cons (h c List.mem_cons_self) cs

/-- There is nothing to trim in front of a text without blanks. -/
theorem Solid.trimLeft_append {core : List Char} (h : Solid core) (hne : core ≠ [])
    (rest : List Char) : Text.trimLeft (core ++ rest) = core ++ rest := by
  cases core with
  | nil => exact absurd rfl hne
  | cons c cs => exact trimLeft_cons (h c List.mem_cons_self) _

theorem Solid.trimRight_append {core right : List Char} (h : Solid core) (hright : Blanks right) :
    trimRight (core ++ right) = core := by
  have hsolid : Solid core.reverse := fun c hc => h c (List.mem_reverse.mp hc)
  have hblanks : Blanks right.reverse := fun c hc => hright c (List.mem_reverse.mp hc)
  rw [trimRight, List.reverse_append, List.dropWhile_append_of_pos hblanks, ← Text.trimLeft,
    hsolid.trimLeft, List.reverse_reverse]

/-- Trimming removes the blanks around a text that has none. -/
theorem Solid.trimBlanks {left core right : List Char} (hcore : Solid core)
    (hleft : Blanks left) (hright : Blanks right) : trimBlanks (left ++ core ++ right) = core := by
  rw [Text.trimBlanks, List.append_assoc, Text.trimLeft, List.dropWhile_append_of_pos hleft,
    ← Text.trimLeft]
  by_cases hne : core = []
  · rw [hne, List.nil_append, Text.trimLeft, List.dropWhile_eq_nil_iff.mpr hright]
    rfl
  · rw [hcore.trimLeft_append hne, hcore.trimRight_append hright]

/-! ## What stands between the blanks -/

/-- No blank at either end. -/
def Tight (cs : List Char) : Prop :=
  (∀ c ∈ cs.head?, isBlank c = false) ∧ ∀ c ∈ cs.getLast?, isBlank c = false

/-- `core` is what stands between the blanks at the ends of a text; it is
empty if the text is blank. -/
def TrimsTo (s : String) (core : List Char) : Prop :=
  Tight core ∧ ∃ left right, Blanks left ∧ Blanks right ∧ s.toList = left ++ core ++ right

instance (cs : List Char) : Decidable (Tight cs) :=
  @instDecidableAnd _ _ (Option.decidableForallMem _) (Option.decidableForallMem _)

theorem tight_nil : Tight [] := ⟨nofun, nofun⟩

theorem Tight.reverse {cs : List Char} (h : Tight cs) : Tight cs.reverse := by
  obtain ⟨hhead, hlast⟩ := h
  constructor
  · intro c hc
    exact hlast c (by simpa using hc)
  · intro c hc
    exact hhead c (by simpa using hc)

/-- There is nothing to trim in front of a text that does not begin with a
blank. -/
theorem trimLeft_of_head {cs : List Char} (h : ∀ c ∈ cs.head?, isBlank c = false) :
    trimLeft cs = cs := by
  cases cs with
  | nil => rfl
  | cons c cs => exact trimLeft_cons (h c (by simp)) cs

theorem trimLeft_blanks {left : List Char} (h : Blanks left) (cs : List Char) :
    trimLeft (left ++ cs) = trimLeft cs := List.dropWhile_append_of_pos h

theorem trimRight_eq (cs : List Char) : trimRight cs = (trimLeft cs.reverse).reverse := rfl

theorem Tight.trimRight {core right : List Char} (hcore : Tight core) (hright : Blanks right) :
    Text.trimRight (core ++ right) = core := by
  have hback : Blanks right.reverse := by
    intro c hc
    exact hright c (by simpa using hc)
  rw [trimRight_eq, List.reverse_append, trimLeft_blanks hback,
    trimLeft_of_head hcore.reverse.1, List.reverse_reverse]

/-- Blanks around a text that has none at its ends are trimmed away. -/
theorem Tight.trimBlanks {left core right : List Char} (hcore : Tight core)
    (hleft : Blanks left) (hright : Blanks right) :
    Text.trimBlanks (left ++ core ++ right) = core := by
  rw [Text.trimBlanks, List.append_assoc, trimLeft_blanks hleft]
  cases core with
  | nil =>
    have hnone : trimLeft right = [] := by simpa [trimLeft] using trimLeft_blanks hright []
    rw [List.nil_append, hnone]
    rfl
  | cons c cs =>
    rw [List.cons_append, trimLeft_cons (hcore.1 c (by simp)), ← List.cons_append,
      hcore.trimRight hright]

/-- Trimming leaves no blank at the ends. -/
theorem tight_trimBlanks (cs : List Char) : Tight (trimBlanks cs) := by
  have hfront : ∀ (ds : List Char), ∀ c ∈ (trimLeft ds).head?, isBlank c = false := by
    intro ds c hc
    have hnot := List.head?_dropWhile_not isBlank ds
    rw [show ds.dropWhile isBlank = trimLeft ds from rfl, Option.mem_def.mp hc] at hnot
    simpa using hnot
  constructor
  · intro c hc
    -- What is trimmed at the end is a beginning of what was trimmed in front.
    have hpart : trimBlanks cs <+: trimLeft cs := by
      rw [trimBlanks, trimRight_eq]
      have hsuffix : trimLeft (trimLeft cs).reverse <:+ (trimLeft cs).reverse :=
        List.dropWhile_suffix _
      simpa using List.reverse_prefix.mpr hsuffix
    obtain ⟨later, hlater⟩ := hpart
    refine hfront cs c ?_
    rw [← hlater, List.head?_append, Option.mem_def.mp hc]
    rfl
  · intro c hc
    rw [trimBlanks, trimRight_eq, List.getLast?_reverse] at hc
    exact hfront _ c hc

/-- Trimming finds what stands between the blanks, and nothing else does. -/
theorem trimsTo_iff {s : String} {core : List Char} :
    TrimsTo s core ↔ trimmed s = String.ofList core := by
  constructor
  · rintro ⟨htight, left, right, hleft, hright, hs⟩
    rw [trimmed, hs, htight.trimBlanks hleft hright]
  · intro h
    obtain rfl : trimBlanks s.toList = core := String.ofList_injective h
    obtain ⟨left, right, hleft, hright, hs⟩ := exists_trimBlanks s.toList
    exact ⟨tight_trimBlanks _, left, right, hleft, hright, hs⟩

theorem exists_trimsTo (s : String) : ∃ core, TrimsTo s core :=
  ⟨trimBlanks s.toList, trimsTo_iff.mpr rfl⟩

/-- Nothing stands between the blanks of a blank text. -/
theorem trimsTo_nil_iff {s : String} : TrimsTo s [] ↔ Blanks s.toList := by
  constructor
  · rintro ⟨-, left, right, hleft, hright, hs⟩ c hc
    rw [hs, List.append_nil] at hc
    rcases List.mem_append.mp hc with hc | hc
    · exact hleft c hc
    · exact hright c hc
  · intro h
    exact ⟨tight_nil, s.toList, [], h, nofun, by simp⟩

/-- A text counts as absent if nothing stands between its blanks. -/
theorem TrimsTo.nonBlank? {s : String} {core : List Char} (h : TrimsTo s core) :
    Text.nonBlank? s = if core = [] then none else some (String.ofList core) := by
  rw [Text.nonBlank?, trimsTo_iff.mp h]
  by_cases hne : core = [] <;> simp [hne]

/-! ## Digits -/

theorem isBlank_of_isDigit {c : Char} (h : isDigit c = true) : isBlank c = false := by
  rw [isDigit_iff] at h
  simp only [isBlank, Bool.or_eq_false_iff, Bool.and_eq_false_iff, decide_eq_false_iff_not,
    beq_eq_false_iff_ne]
  omega

theorem Writes.solid {width n : Nat} {cs : List Char} (h : Writes width n cs) : Solid cs :=
  fun c hc => isBlank_of_isDigit (h.digits c hc)

end Runwatch.Text
