/-
Runwatch.Proofs.Store.Chronology — stored times stand for the instants.

A row holds its times as texts and is sorted by their bytes, a record holds
instants and is sorted by these. For years of four digits and outside leap
seconds that is the same: the bytes of two texts compare as the instants do,
although a fraction is written in no, three, six or nine digits, and a text
gives back its instant. So rows are listed as their records are.

The order of the texts is `Time.rfc3339_lt_rfc3339`, and reading them is
`Row.readTime_rfc3339`. Here both are put together with the layout of the
texts (`IsStamp`) and the order of a listing (`listed_by_bytes`).

The main statement is `stored_times_stand_for_instants`.
-/
import Runwatch.Proofs.Store.Agreement

namespace Runwatch.Time

open Text (isDigit padded writes_padded)

/-! ## §1 Layout -/

/-- Nothing, or a point and three, six or nine digits. -/
def IsGrouped (cs : List Char) : Prop :=
  cs = [] ∨ ∃ digits, cs = '.' :: digits ∧ (∀ c ∈ digits, isDigit c = true) ∧
    (digits.length = 3 ∨ digits.length = 6 ∨ digits.length = 9)

/-- A date and a clock of 19 characters, a fraction, and the offset of
universal time. -/
def IsStamp (text : String) : Prop :=
  ∃ clock fraction : List Char, clock.length = 19 ∧ IsGrouped fraction ∧
    text.toList = clock ++ (fraction ++ ['+', '0', '0', ':', '0', '0'])

theorem isGrouped_padded {width n : Nat} (hwidth : width = 3 ∨ width = 6 ∨ width = 9)
    (hn : n < 10 ^ width) : IsGrouped ("." ++ padded width n).toList := by
  have hwrites := writes_padded (by omega) hn
  refine .inr ⟨(padded width n).toList, ?_, hwrites.digits, hwrites.length.symm ▸ hwidth⟩
  rw [String.toList_append]
  rfl

theorem isGrouped_fractionText {nanos : Nat} (h : nanos < 1000000000) :
    IsGrouped (fractionText nanos).toList := by
  rw [fractionText]
  split
  · exact .inl rfl
  · split
    · exact isGrouped_padded (.inl rfl) (by omega)
    · split
      · exact isGrouped_padded (.inr (.inl rfl)) (by omega)
      · exact isGrouped_padded (.inr (.inr rfl)) h

theorem isStamp_rfc3339 {t : Instant} (ht : t.IsCommon) : IsStamp t.rfc3339 := by
  have hdate := t.date_isValid
  have hclock := t.secondOfDay_lt
  have hyear : t.date.year.toNat < 10 ^ 4 := by
    have := ht.year_le
    omega
  have hmonth : t.date.month < 10 ^ 2 := Nat.lt_of_le_of_lt hdate.month_le (by decide)
  have hhour : t.secondOfDay / 3600 < 10 ^ 2 := by omega
  have hminute : t.secondOfDay / 60 % 60 < 10 ^ 2 := by omega
  have hsecond : t.secondOfDay % 60 < 10 ^ 2 := by omega
  refine ⟨dateChars t.date ++ 'T' :: clockChars t.secondOfDay, _, ?_,
    isGrouped_fractionText ht.nanos_lt, ?_⟩
  · have hlength {width n : Nat} (hw : 0 < width) (hn : n < 10 ^ width) :
        (padded width n).toList.length = width := (writes_padded hw hn).length
    simp only [dateChars, clockChars, List.length_append, List.length_cons]
    rw [hlength (by decide) hyear, hlength (by decide) hmonth, hlength (by decide) hdate.day_lt,
      hlength (by decide) hhour, hlength (by decide) hminute, hlength (by decide) hsecond]
  · rw [rfc3339_toList ht, List.append_assoc, List.cons_append]
    rfl

end Runwatch.Time

namespace Runwatch.Store

open Text.Utf8 (bytes bytes_lt_bytes)
open Time (Instant IsStamp)

/-! ## §2 Listings -/

/-- The order of records is that of the bytes of their times of creation as
texts, and then of their tokens. -/
theorem listed_by_bytes {r r' : DeviceToken} (h : r.createdAt.IsCommon)
    (h' : r'.createdAt.IsCommon) : Memory.listedBefore r r' = true ↔
      bytes r.createdAt.rfc3339 < bytes r'.createdAt.rfc3339 ∨
        r.createdAt.rfc3339 = r'.createdAt.rfc3339 ∧ ¬ bytes r'.token < bytes r.token := by
  rw [← Row.listedBefore_ofRecord h h']
  exact Row.listedBefore_iff_bytes rfl rfl

/-- **Stored times stand for the instants.** The bytes of their texts compare
as they do, the texts give them back, and so rows that are sorted by these
texts and by their tokens are the rows of the records that are sorted by the
instants. -/
theorem stored_times_stand_for_instants {a b : Instant} (ha : a.IsCommon) (hb : b.IsCommon)
    {records : List DeviceToken} (hrecords : ∀ r ∈ records, r.createdAt.IsCommon) :
    IsStamp a.rfc3339 ∧
    (bytes a.rfc3339 < bytes b.rfc3339 ↔ a.before b = true) ∧
    (bytes a.rfc3339 = bytes b.rfc3339 ↔ a = b) ∧
    Row.readTime a.rfc3339 = .ok a ∧
    (records.map Row.ofRecord).mergeSort Row.listedBefore =
      (records.mergeSort Memory.listedBefore).map Row.ofRecord ∧
    (records.mergeSort Memory.listedBefore).Pairwise fun r r' =>
      bytes r.createdAt.rfc3339 < bytes r'.createdAt.rfc3339 ∨
        r.createdAt.rfc3339 = r'.createdAt.rfc3339 ∧ ¬ bytes r'.token < bytes r.token := by
  refine ⟨Time.isStamp_rfc3339 ha, ?order, ?equal, Row.readTime_rfc3339 ha,
    Row.mergeSort_ofRecord hrecords, ?sorted⟩
  case order => rw [bytes_lt_bytes, Time.rfc3339_lt_rfc3339 ha hb]
  case equal =>
    refine ⟨fun heq => (Time.rfc3339_inj ha hb).mp ?_, fun heq => by rw [heq]⟩
    have hread := congrArg Text.Utf8.text? heq
    rw [Text.Utf8.text?_bytes, Text.Utf8.text?_bytes] at hread
    exact Option.some.inj hread
  case sorted =>
    have hsorted := List.pairwise_mergeSort Memory.listedBefore_trans Memory.listedBefore_total
      records
    refine hsorted.imp_of_mem fun hr hr' hbefore => ?_
    exact (listed_by_bytes (hrecords _ (List.mem_mergeSort.mp hr))
      (hrecords _ (List.mem_mergeSort.mp hr'))).mp hbefore

/-- Tokens entered within one second, the last ones first; two of them at its
very start. -/
def sameSecond : List DeviceToken :=
  [⟨"e", ⟨"ada"⟩, .production, "app", ⟨-1, 500000001⟩, ⟨0, 0⟩, none, none⟩,
   ⟨"d", ⟨"ada"⟩, .production, "app", ⟨-1, 500000000⟩, ⟨0, 0⟩, none, none⟩,
   ⟨"c", ⟨"ada"⟩, .production, "app", ⟨-1, 1000⟩, ⟨0, 0⟩, none, none⟩,
   ⟨"b", ⟨"ada"⟩, .production, "app", ⟨-1, 0⟩, ⟨0, 0⟩, none, none⟩,
   ⟨"a", ⟨"ada"⟩, .production, "app", ⟨-1, 0⟩, ⟨0, 0⟩, none, none⟩]

/-- Half a second and one nanosecond more: the shorter text goes on with its
offset where the longer one has a digit. -/
theorem sameSecond_stands_for_instants :
    (⟨-1, 500000000⟩ : Instant).IsCommon ∧ (⟨-1, 500000001⟩ : Instant).IsCommon ∧
      (∀ r ∈ sameSecond, r.createdAt.IsCommon) ∧
      bytes (⟨-1, 500000000⟩ : Instant).rfc3339 < bytes (⟨-1, 500000001⟩ : Instant).rfc3339 ∧
      (sameSecond.map Row.ofRecord).mergeSort Row.listedBefore =
        (sameSecond.mergeSort Memory.listedBefore).map Row.ofRecord := by
  have hhalf : (⟨-1, 500000000⟩ : Instant).IsCommon := by decide
  have hmore : (⟨-1, 500000001⟩ : Instant).IsCommon := by decide
  have hrecords : ∀ r ∈ sameSecond, r.createdAt.IsCommon := by decide
  obtain ⟨-, horder, -, -, hsorted, -⟩ := stored_times_stand_for_instants hhalf hmore hrecords
  exact ⟨hhalf, hmore, hrecords, horder.mpr rfl, hsorted⟩

end Runwatch.Store
