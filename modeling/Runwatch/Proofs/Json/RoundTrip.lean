/-
Runwatch.Proofs.Json.RoundTrip — JSON text that is written is read back.

Reader and writer are compared with any rest behind a value. A number must
not run on into that rest (`Stops`); a string and a value in brackets end by
themselves. `Legible depth` is the set of values that come back: the numbers
are whole, and at most `depth` arrays and objects stand inside one another.
What comes back is the sorted value, which is the value itself if that is in
order (`Writable`). The proof follows the values; fuel is counted by the length
of the text that is left.

  §1 Strings — one character and its escape at a time.
  §2 Numbers — digits without zeros in front.
  §3 Values — `readValue_valueOnto`, by induction on what is legible.

The main statements are `parse?_compact_sorted` and `parse?_compact`.
-/
import Runwatch.Json.Reader
import Runwatch.Json.Writer
import Runwatch.Proofs.Json.Records
import Runwatch.Proofs.Text.Decimal

namespace Runwatch.Json

open Text (isDigit natOfDigits decimalChars)

/-! ## §1 Strings -/

/-- The four digits of a control character. -/
theorem codeUnit?_hexPadded {n : Nat} (h : n < 0x20) :
    ∃ a b c d, Text.hexPadded 4 n = [a, b, c, d] ∧ codeUnit? a b c d = some n := by
  refine ⟨_, _, _, _, rfl, ?_⟩
  interval_cases n <;> decide

/-- A character that needs no escape. -/
theorem readStringOnto_char {c : Char} (hquote : c ≠ '"') (hback : c ≠ '\\')
    (hcontrol : ¬ c.toNat < 0x20) (done rest : List Char) :
    readStringOnto done (c :: rest) = readStringOnto (c :: done) rest := by
  rw [readStringOnto.eq_def]
  split <;> simp_all

/-- An escape of one letter. -/
theorem readStringOnto_simple {letter c : Char} (hletter : letter ≠ 'u')
    (hc : simpleEscape? letter = some c) (done rest : List Char) :
    readStringOnto done ('\\' :: letter :: rest) = readStringOnto (c :: done) rest := by
  rw [readStringOnto]
  · rw [hc]
  · exact fun _ _ _ _ _ h => absurd h hletter

/-- An escape by the number of a character below the surrogates. -/
theorem readStringOnto_codeUnit {a b c d : Char} {u : Nat} (hu : codeUnit? a b c d = some u)
    (hlow : u < 0xD800) (done rest : List Char) :
    readStringOnto done ('\\' :: 'u' :: a :: b :: c :: d :: rest) =
      readStringOnto (Char.ofNat u :: done) rest := by
  have hhigh : isHighSurrogate u = false := by
    simp only [isHighSurrogate, Bool.and_eq_false_iff, decide_eq_false_iff_not]
    omega
  have hno : isLowSurrogate u = false := by
    simp only [isLowSurrogate, Bool.and_eq_false_iff, decide_eq_false_iff_not]
    omega
  rw [readStringOnto]
  simp [hu, hhigh, hno]

/-- A character in its written form is one character. -/
theorem readStringOnto_escapedChar (c : Char) (done rest : List Char) :
    readStringOnto done (escapedChar c ++ rest) = readStringOnto (c :: done) rest := by
  have hsimple {letter : Char} (hletter : letter ≠ 'u') (hc : simpleEscape? letter = some c) :=
    readStringOnto_simple hletter hc done rest
  simp only [escapedChar, beq_iff_eq]
  split_ifs with hquote hback hb hf hn hr ht hcontrol
  · exact hsimple (by decide) (by rw [hquote]; rfl)
  · exact hsimple (by decide) (by rw [hback]; rfl)
  · exact hsimple (by decide) (by rw [hb]; rfl)
  · exact hsimple (by decide) (by rw [hf]; rfl)
  · exact hsimple (by decide) (by rw [hn]; rfl)
  · exact hsimple (by decide) (by rw [hr]; rfl)
  · exact hsimple (by decide) (by rw [ht]; rfl)
  · obtain ⟨a, b, d, e, hdigits, hu⟩ := codeUnit?_hexPadded hcontrol
    have hread := readStringOnto_codeUnit hu (by omega) done rest
    rw [Char.ofNat_toNat] at hread
    rw [hdigits]
    exact hread
  · exact readStringOnto_char hquote hback hcontrol done rest

theorem readStringOnto_flatMap (cs done rest : List Char) :
    readStringOnto done (cs.flatMap escapedChar ++ '"' :: rest) =
      some (String.ofList (done.reverse ++ cs), rest) := by
  induction cs generalizing done with
  | nil => simp [readStringOnto]
  | cons c cs ih =>
    rw [List.flatMap_cons, List.append_assoc, readStringOnto_escapedChar, ih]
    simp

/-- A string is read back behind its opening quote. -/
theorem readString_stringOnto (s : String) (rest : List Char) :
    readString (s.toList.flatMap escapedChar ++ '"' :: rest) = some (s, rest) := by
  rw [readString, readStringOnto_flatMap, List.reverse_nil, List.nil_append, String.ofList_toList]

/-! ## §2 Numbers -/

/-- A text that no number runs on into. -/
def Stops (rest : List Char) : Prop :=
  ∀ c ∈ rest.head?, isDigit c = false ∧ c ≠ '.' ∧ c ≠ 'e' ∧ c ≠ 'E'

theorem Stops.nil : Stops [] := nofun

theorem Stops.cons {c : Char} {rest : List Char}
    (h : isDigit c = false ∧ c ≠ '.' ∧ c ≠ 'e' ∧ c ≠ 'E') : Stops (c :: rest) := by
  rintro d ⟨⟩
  exact h

theorem takeWhile_digits {digits rest : List Char} (h : ∀ c ∈ digits, isDigit c = true)
    (hrest : Stops rest) : (digits ++ rest).takeWhile isDigit = digits := by
  rw [List.takeWhile_append_of_pos h]
  cases rest with
  | nil => simp
  | cons c rest => simp [(hrest c rfl).1]

theorem dropWhile_digits {digits rest : List Char} (h : ∀ c ∈ digits, isDigit c = true)
    (hrest : Stops rest) : (digits ++ rest).dropWhile isDigit = rest := by
  rw [List.dropWhile_append_of_pos h]
  cases rest with
  | nil => rfl
  | cons c rest => simp [(hrest c rfl).1]

/-- Digits of a number of 64 bits are all taken. -/
theorem takeDigits_eq {acc taken : Nat} {digits : List Char}
    (h : natOfDigits acc digits < UInt64.size) :
    takeDigits acc taken digits = (natOfDigits acc digits, taken + digits.length, []) := by
  induction digits generalizing acc taken with
  | nil => rfl
  | cons c digits ih =>
    rw [Text.natOfDigits_cons] at h ⊢
    have hfits : acc * 10 + Text.digitValue c < UInt64.size := by
      refine Nat.lt_of_le_of_lt ?_ h
      rw [Text.natOfDigits_eq, Nat.mul_comm acc]
      exact Nat.le_trans (Nat.le_mul_of_pos_right _ (Nat.pow_pos (by decide))) (Nat.le_add_right ..)
    rw [takeDigits]
    simp only [hfits, if_true]
    rw [Nat.mul_comm acc] at hfits ⊢
    rw [ih h, List.length_cons, Nat.add_right_comm, Nat.add_assoc]

/-- A whole number is read back without its sign. -/
theorem readUnsigned_decimalChars (negative : Bool) {n : Nat} (hn : n < UInt64.size)
    {rest : List Char} (hrest : Stops rest) :
    readUnsigned negative (decimalChars n ++ rest) =
      (wholeNumber? negative n).map fun number => (number, rest) := by
  have hdigits := fun c (hc : c ∈ decimalChars n) => Text.isDigit_of_mem_decimalChars hc
  have htaken : takeDigits 0 0 (decimalChars n) = (n, 0 + (decimalChars n).length, []) := by
    rw [takeDigits_eq (by rw [Text.natOfDigits_decimalChars]; exact hn),
      Text.natOfDigits_decimalChars]
  rw [readUnsigned]
  simp only [takeWhile_digits hdigits hrest, dropWhile_digits hdigits hrest, htaken]
  split
  · next h => exact absurd h (Text.decimalChars_ne_nil n)
  · next h => exact absurd h (Text.decimalChars_ne_zero_cons n _ _)
  · cases rest with
    | nil => rfl
    | cons c rest =>
      obtain ⟨-, hpoint, he, hE⟩ := hrest c rfl
      simp [hpoint, he, hE]

/-- A number that is written as a whole one. -/
def Number.IsWhole : Number → Prop
  | .natural _ => True
  | .negative _ => True
  | .double _ => False

/-- The sign or first digit of a whole number. -/
theorem exists_numberChars_cons {n : Number} (hn : n.IsWhole) :
    ∃ c cs, numberChars n = c :: cs ∧ (c = '-' ∨ isDigit c = true) := by
  cases n with
  | natural n =>
    obtain ⟨c, cs, hcs⟩ := List.exists_cons_of_ne_nil (Text.decimalChars_ne_nil n.toNat)
    refine ⟨c, cs, hcs, .inr (Text.isDigit_of_mem_decimalChars (n := n.toNat) ?_)⟩
    rw [hcs]
    exact List.mem_cons_self
  | negative below => exact ⟨'-', _, rfl, .inl rfl⟩
  | double d => exact hn.elim

theorem ne_of_number {c d : Char} (hc : c = '-' ∨ isDigit c = true) (hd : d ≠ '-')
    (hd' : isDigit d = false) : c ≠ d := by
  rintro rfl
  cases hc with
  | inl hc => exact hd hc
  | inr hc =>
    rw [hd'] at hc
    cases hc

theorem isGap_of_number {c : Char} (hc : c = '-' ∨ isDigit c = true) : isGap c = false := by
  simp only [isGap, Bool.or_eq_false_iff, beq_eq_false_iff_ne]
  exact ⟨⟨⟨ne_of_number hc (by decide) rfl, ne_of_number hc (by decide) rfl⟩,
    ne_of_number hc (by decide) rfl⟩, ne_of_number hc (by decide) rfl⟩

theorem readNumber_numberChars {n : Number} (hn : n.IsWhole) {rest : List Char}
    (hrest : Stops rest) : readNumber (numberChars n ++ rest) = some (n, rest) := by
  cases n with
  | natural n =>
    have hread := readUnsigned_decimalChars false n.toNat_lt hrest
    rw [wholeNumber?, if_neg Bool.false_ne_true, UInt64.ofNat_toNat, Option.map_some] at hread
    rw [numberChars, readNumber]
    · exact hread
    · intro tail htail
      obtain ⟨c, cs, hcs⟩ := List.exists_cons_of_ne_nil (Text.decimalChars_ne_nil n.toNat)
      have hdigit : isDigit c = true :=
        Text.isDigit_of_mem_decimalChars (n := n.toNat) (by rw [hcs]; exact List.mem_cons_self)
      rw [hcs, List.cons_append, List.cons.injEq] at htail
      rw [htail.1] at hdigit
      exact absurd hdigit (by decide)
  | negative below =>
    have hsize : below.val + 1 < UInt64.size :=
      Nat.lt_of_le_of_lt below.isLt (by decide)
    have hread := readUnsigned_decimalChars true hsize hrest
    rw [wholeNumber?, if_pos rfl, dif_pos ⟨Nat.succ_pos _, below.isLt⟩, Option.map_some] at hread
    rw [numberChars, List.cons_append, readNumber, hread]
    rfl
  | double d => exact hn.elim

/-! ## §3 Values -/

/-- Values that are read back, the members of their objects put in order, when
at most `depth` arrays and objects may stand inside one another. -/
inductive Legible : Nat → Value → Prop where
  | null (depth : Nat) : Legible depth .null
  | bool (depth : Nat) (b : Bool) : Legible depth (.bool b)
  | number (depth : Nat) {n : Number} (whole : n.IsWhole) : Legible depth (.number n)
  | string (depth : Nat) (s : String) : Legible depth (.string s)
  | array {depth : Nat} {vs : List Value} (elements : ∀ v ∈ vs, Legible depth v) :
      Legible (depth + 1) (.array vs)
  | object {depth : Nat} {ms : Members} (members : ∀ m ∈ ms, Legible depth m.2) :
      Legible (depth + 1) (.object ms)

/-- Values that are read back as they are when at most `depth` arrays and objects may
stand inside one another. -/
inductive Writable : Nat → Value → Prop where
  | null (depth : Nat) : Writable depth .null
  | bool (depth : Nat) (b : Bool) : Writable depth (.bool b)
  | number (depth : Nat) {n : Number} (whole : n.IsWhole) : Writable depth (.number n)
  | string (depth : Nat) (s : String) : Writable depth (.string s)
  | array {depth : Nat} {vs : List Value} (elements : ∀ v ∈ vs, Writable depth v) :
      Writable (depth + 1) (.array vs)
  | object {depth : Nat} {ms : Members} (inOrder : ms.Pairwise fun m m' => m.1 < m'.1)
      (members : ∀ m ∈ ms, Writable depth m.2) : Writable (depth + 1) (.object ms)

theorem Writable.object_singleton {depth : Nat} {name : String} {v : Value}
    (hv : Writable depth v) : Writable (depth + 1) (.object [(name, v)]) :=
  .object (List.pairwise_singleton _ _) (List.forall_mem_singleton.mpr hv)

/-- A member is put in front of an object with a later name first. -/
theorem Writable.object_cons {depth : Nat} {name first : String} {v w : Value} {ms : Members}
    (hv : Writable depth v) (hlt : name < first)
    (hms : Writable (depth + 1) (.object ((first, w) :: ms))) :
    Writable (depth + 1) (.object ((name, v) :: (first, w) :: ms)) := by
  cases hms with
  | object inOrder members =>
    refine .object (List.pairwise_cons.mpr ⟨List.forall_mem_cons.mpr ⟨hlt, fun m hm => ?_⟩, inOrder⟩)
      (List.forall_mem_cons.mpr ⟨hv, members⟩)
    exact String.lt_trans hlt ((List.pairwise_cons.mp inOrder).1 m hm)

theorem Writable.legible {depth : Nat} {v : Value} (h : Writable depth v) : Legible depth v := by
  induction h with
  | null depth => exact .null depth
  | bool depth b => exact .bool depth b
  | number depth whole => exact .number depth whole
  | string depth s => exact .string depth s
  | array _ ih => exact .array ih
  | object _ _ ih => exact .object ih

theorem Writable.inOrder {depth : Nat} {v : Value} (h : Writable depth v) : InOrder v := by
  induction h with
  | null => exact .null
  | bool _ b => exact .bool b
  | number _ _ => exact .number _
  | string _ s => exact .string s
  | array _ ih => exact .array ih
  | object inOrder _ ih => exact .object inOrder ih

/-- A value is read back sorted in front of what stops it, with fuel for the
text. -/
def ReadsBack (depth : Nat) (v : Value) : Prop :=
  ∀ fuel rest, Stops rest → 2 * (valueOnto v rest).length + 2 ≤ fuel →
    readValue fuel depth (valueOnto v rest) = some (v.sorted, rest)

/-- Reading a value takes one unit of fuel, and then what it holds takes the
others. -/
theorem ReadsBack.of_succ {depth : Nat} {v : Value}
    (h : ∀ fuel rest, Stops rest → 2 * (valueOnto v rest).length + 1 ≤ fuel →
      readValue (fuel + 1) depth (valueOnto v rest) = some (v.sorted, rest)) :
    ReadsBack depth v := by
  intro fuel rest hrest hfuel
  obtain ⟨fuel, rfl⟩ := Nat.exists_eq_add_of_le' (Nat.le_trans (Nat.le_add_left 1 _) hfuel)
  exact h fuel rest hrest (by omega)

/-- A value begins with no gap and no closing bracket. -/
theorem exists_valueOnto_cons {depth : Nat} {v : Value} (h : Legible depth v) (rest : List Char) :
    ∃ c cs, valueOnto v rest = c :: cs ∧ isGap c = false ∧ c ≠ ']' := by
  cases h with
  | null => exact ⟨_, _, rfl, rfl, by decide⟩
  | bool _ b => cases b <;> exact ⟨_, _, rfl, rfl, by decide⟩
  | @number _ n whole =>
    obtain ⟨c, cs, hcs, hc⟩ := exists_numberChars_cons whole
    refine ⟨c, cs ++ rest, ?_, isGap_of_number hc, ne_of_number hc (by decide) rfl⟩
    rw [valueOnto, hcs]
    rfl
  | string _ s => exact ⟨_, _, rfl, rfl, by decide⟩
  | @array _ vs _ => cases vs <;> exact ⟨_, _, rfl, rfl, by decide⟩
  | @object _ ms _ =>
    cases ms with
    | nil => exact ⟨_, _, rfl, rfl, by decide⟩
    | cons m ms => exact ⟨_, _, rfl, rfl, by decide⟩

theorem skipGap_cons {c : Char} (h : isGap c = false) (cs : List Char) :
    skipGap (c :: cs) = c :: cs := by
  rw [skipGap, List.dropWhile_cons_of_neg]
  simp [h]

theorem readsBack_number {n : Number} (hn : n.IsWhole) (depth : Nat) :
    ReadsBack depth (.number n) := by
  refine .of_succ fun fuel rest hrest _ => ?_
  obtain ⟨c, cs, hcs, hc⟩ := exists_numberChars_cons hn
  have hread := readNumber_numberChars hn hrest
  rw [valueOnto, readValue]
  rw [hcs, List.cons_append] at hread ⊢
  rw [skipGap_cons (isGap_of_number hc)]
  have hhead {d : Char} {tail : List Char} (hd : d ≠ '-') (hd' : isDigit d = false) :
      c :: (cs ++ rest) ≠ d :: tail := fun heq =>
    ne_of_number hc hd hd' (List.cons.inj heq).1
  split
  · next heq => exact absurd heq (hhead (by decide) rfl)
  · next heq => exact absurd heq (hhead (by decide) rfl)
  · next heq => exact absurd heq (hhead (by decide) rfl)
  · next heq => exact absurd heq (hhead (by decide) rfl)
  · next heq => exact absurd heq (hhead (by decide) rfl)
  · next heq => exact absurd heq (hhead (by decide) rfl)
  · rw [hread]
    rfl

mutual

/-- A value is written in front of the rest. -/
theorem length_le_valueOnto : ∀ (v : Value) (rest : List Char),
    rest.length ≤ (valueOnto v rest).length
  | .null, rest => by
    simp only [valueOnto, List.length_cons]
    omega
  | .bool true, rest => by
    simp only [valueOnto, List.length_cons]
    omega
  | .bool false, rest => by
    simp only [valueOnto, List.length_cons]
    omega
  | .number n, rest => by
    simp only [valueOnto, List.length_append]
    omega
  | .string s, rest => by
    simp only [valueOnto, stringOnto, List.length_cons, List.length_append]
    omega
  | .array [], rest => by
    simp only [valueOnto, List.length_cons]
    omega
  | .array (v :: vs), rest => by
    have hv := length_le_valueOnto v (elementsOnto vs rest)
    have hvs := length_lt_elementsOnto vs rest
    simp only [valueOnto, List.length_cons]
    omega
  | .object [], rest => by
    simp only [valueOnto, List.length_cons]
    omega
  | .object ((name, v) :: ms), rest => by
    have hv := length_le_valueOnto v (membersOnto ms rest)
    have hms := length_lt_membersOnto ms rest
    simp only [valueOnto, stringOnto, List.length_cons, List.length_append]
    omega

theorem length_lt_elementsOnto : ∀ (vs : List Value) (rest : List Char),
    rest.length < (elementsOnto vs rest).length
  | [], rest => by simp [elementsOnto]
  | v :: vs, rest => by
    have hv := length_le_valueOnto v (elementsOnto vs rest)
    have hvs := length_lt_elementsOnto vs rest
    simp only [elementsOnto, List.length_cons]
    omega

theorem length_lt_membersOnto : ∀ (ms : List (String × Value)) (rest : List Char),
    rest.length < (membersOnto ms rest).length
  | [], rest => by simp [membersOnto]
  | (name, v) :: ms, rest => by
    have hv := length_le_valueOnto v (membersOnto ms rest)
    have hms := length_lt_membersOnto ms rest
    simp only [membersOnto, stringOnto, List.length_cons, List.length_append]
    omega

end

/-- What stands behind an element. -/
theorem stops_elementsOnto (vs : List Value) (rest : List Char) : Stops (elementsOnto vs rest) := by
  cases vs <;> exact .cons (by decide)

theorem stops_membersOnto (ms : List (String × Value)) (rest : List Char) :
    Stops (membersOnto ms rest) := by
  cases ms with
  | nil => exact .cons (by decide)
  | cons m ms => exact .cons (by decide)

/-- Elements are read back behind those already read. -/
theorem readElements_elementsOnto {depth : Nat} {v : Value} {vs : List Value}
    (h : ∀ w ∈ v :: vs, ReadsBack depth w) (fuel : Nat) (done : List Value) (rest : List Char)
    (hfuel : 2 * (valueOnto v (elementsOnto vs rest)).length + 3 ≤ fuel) :
    readElements fuel depth done (valueOnto v (elementsOnto vs rest)) =
      some (.array (done.reverse ++ sortedElements (v :: vs)), rest) := by
  induction vs generalizing v fuel done with
  | nil =>
    obtain ⟨fuel, rfl⟩ := Nat.exists_eq_add_of_le' (Nat.le_trans (Nat.le_add_left 1 _) hfuel)
    have hread := h v List.mem_cons_self fuel _ (stops_elementsOnto [] rest) (by omega)
    rw [readElements, hread]
    simp [elementsOnto, sortedElements, skipGap, isGap]
  | cons w vs ih =>
    obtain ⟨fuel, rfl⟩ := Nat.exists_eq_add_of_le' (Nat.le_trans (Nat.le_add_left 1 _) hfuel)
    have hread := h v List.mem_cons_self fuel _ (stops_elementsOnto (w :: vs) rest) (by omega)
    have hlength := length_le_valueOnto v (elementsOnto (w :: vs) rest)
    rw [readElements, hread, elementsOnto]
    simp only [elementsOnto, List.length_cons] at hlength hfuel
    have hrest := ih (fun u hu => h u (List.mem_cons_of_mem v hu)) fuel (v.sorted :: done)
      (by omega)
    simpa [sortedElements, skipGap_cons (c := ',') rfl] using hrest

/-- A member and the comma behind it. -/
theorem readMembers_comma {fuel depth : Nat} {name : String} {v : Value} {rest : List Char}
    (done : Members)
    (hv : readValue fuel depth (valueOnto v (',' :: rest)) = some (v.sorted, ',' :: rest)) :
    readMembers (fuel + 1) depth done (stringOnto name (':' :: valueOnto v (',' :: rest))) =
      readMembers fuel depth (Members.insert name v.sorted done) rest := by
  rw [readMembers, stringOnto, List.cons_append, skipGap_cons rfl]
  simp [readString_stringOnto, skipGap_cons (c := ':') rfl, skipGap_cons (c := ',') rfl, hv]

/-- A member and the brace behind it. -/
theorem readMembers_brace {fuel depth : Nat} {name : String} {v : Value} {rest : List Char}
    (done : Members)
    (hv : readValue fuel depth (valueOnto v ('\x7d' :: rest)) = some (v.sorted, '\x7d' :: rest)) :
    readMembers (fuel + 1) depth done (stringOnto name (':' :: valueOnto v ('\x7d' :: rest))) =
      some (.object (Members.insert name v.sorted done), rest) := by
  rw [readMembers, stringOnto, List.cons_append, skipGap_cons rfl]
  simp [readString_stringOnto, skipGap_cons (c := ':') rfl, skipGap_cons (c := '\x7d') rfl, hv]

/-- Fuel for a member is fuel for its value. -/
theorem readValue_member {depth fuel : Nat} {name : String} {v : Value} {ms : Members}
    {rest : List Char} (h : ReadsBack depth v)
    (hfuel : 2 * (stringOnto name (':' :: valueOnto v (membersOnto ms rest))).length + 3 ≤ fuel) :
    ∃ fuel', fuel = fuel' + 1 ∧ 2 * (valueOnto v (membersOnto ms rest)).length + 3 ≤ fuel' ∧
      readValue fuel' depth (valueOnto v (membersOnto ms rest)) =
        some (v.sorted, membersOnto ms rest) := by
  obtain ⟨fuel, rfl⟩ := Nat.exists_eq_add_of_le' (Nat.le_trans (Nat.le_add_left 1 _) hfuel)
  simp only [stringOnto, List.length_cons, List.length_append] at hfuel
  exact ⟨fuel, rfl, by omega, h fuel _ (stops_membersOnto ms rest) (by omega)⟩

/-- Members are read back behind those already read. -/
theorem readMembers_membersOnto {depth : Nat} {name : String} {v : Value} {ms : Members}
    (h : ∀ m ∈ (name, v) :: ms, ReadsBack depth m.2) (done : Members) (fuel : Nat)
    (rest : List Char)
    (hfuel : 2 * (stringOnto name (':' :: valueOnto v (membersOnto ms rest))).length + 3 ≤ fuel) :
    readMembers fuel depth done (stringOnto name (':' :: valueOnto v (membersOnto ms rest))) =
      some (.object (setSorted done ((name, v) :: ms)), rest) := by
  induction ms generalizing name v done fuel with
  | nil =>
    obtain ⟨fuel, rfl, -, hread⟩ := readValue_member (h _ List.mem_cons_self) hfuel
    rw [membersOnto] at hread ⊢
    exact readMembers_brace done hread
  | cons m ms ih =>
    have hv : ReadsBack depth v := h (name, v) List.mem_cons_self
    obtain ⟨fuel, rfl, hfuel, hread⟩ := readValue_member hv hfuel
    have hlength := length_le_valueOnto v (membersOnto (m :: ms) rest)
    rw [membersOnto] at hread hlength hfuel ⊢
    rw [readMembers_comma done hread,
      ih (fun m hm => h m (List.mem_cons_of_mem _ hm)) _ fuel
        (by rw [List.length_cons] at hlength; omega)]
    rfl

/-- What is legible is read back. -/
theorem readValue_valueOnto {depth : Nat} {v : Value} (h : Legible depth v) :
    ReadsBack depth v := by
  induction h with
  | number depth whole => exact readsBack_number whole depth
  | null depth =>
    refine .of_succ fun fuel rest _ _ => ?_
    rw [valueOnto, readValue, skipGap_cons rfl]
    simp [Value.sorted]
  | bool depth b =>
    refine .of_succ fun fuel rest _ _ => ?_
    cases b with
    | false =>
      rw [valueOnto, readValue, skipGap_cons rfl]
      simp [Value.sorted]
    | true =>
      rw [valueOnto, readValue, skipGap_cons rfl]
      simp [Value.sorted]
  | string depth s =>
    refine .of_succ fun fuel rest _ _ => ?_
    rw [valueOnto, stringOnto, List.cons_append, readValue, skipGap_cons rfl]
    simp [readString_stringOnto, Value.sorted]
  | @array depth vs elements ih =>
    refine .of_succ fun fuel rest _ hfuel => ?_
    cases vs with
    | nil =>
      rw [valueOnto, readValue, skipGap_cons rfl]
      simp [skipGap_cons (c := ']') rfl, Value.sorted, sortedElements]
    | cons v vs =>
      rw [valueOnto, List.length_cons] at hfuel
      have hread := readElements_elementsOnto ih fuel [] rest (by omega)
      obtain ⟨c, cs, hcs, hgap, hclose⟩ :=
        exists_valueOnto_cons (elements v List.mem_cons_self) (elementsOnto vs rest)
      rw [valueOnto, readValue, skipGap_cons rfl]
      rw [hcs] at hread ⊢
      simp [skipGap_cons hgap, hclose, hread, Value.sorted]
  | @object depth ms members ih =>
    refine .of_succ fun fuel rest _ hfuel => ?_
    cases ms with
    | nil =>
      rw [valueOnto, readValue, skipGap_cons rfl]
      simp [skipGap_cons (c := '\x7d') rfl, Value.sorted, sortedMembers]
    | cons m ms =>
      rw [valueOnto, List.length_cons] at hfuel
      have hread := readMembers_membersOnto ih [] fuel rest (by omega)
      rw [valueOnto, readValue, skipGap_cons rfl]
      rw [stringOnto, List.cons_append] at hread ⊢
      simp [skipGap_cons (c := '"') rfl, hread, setSorted_nil, Value.sorted]

/-- The compact text of a legible value is read back sorted. -/
theorem parse?_compact_sorted {v : Value} (h : Legible maxNesting v) :
    parse? (compact v) = some v.sorted := by
  have hread := readValue_valueOnto h (2 * (valueOnto v []).length + 2) [] .nil (Nat.le_refl _)
  rw [parse?, compact, String.toList_ofList, parseChars?, hread]
  rfl

/-- The compact text of a writable value is read back as that. -/
theorem parse?_compact {v : Value} (h : Writable maxNesting v) : parse? (compact v) = some v := by
  rw [parse?_compact_sorted h.legible, h.inOrder.sorted_eq]

end Runwatch.Json
