/-
Runwatch.Proofs.Json.Passage — JSON text passes a scanner.

The scanner of spans knows braces, quotes and backslashes and nothing else
of JSON. What the reader of JSON text accepts still never misleads it: a
scanner that is in a span and outside any string goes through the text of a
value, holds it, and is left as it was (`Passes`). The proof follows the
reader. `Passed cs rest` says that what stands between two points of a text
passes, and each function of the reader moves from one such point to
another.

  §1 Passing — plain symbols, concatenation, and a text in braces.
  §2 Strings — escapes and plain characters, with the closing quote.
  §3 Numbers — digits, signs, points and exponents are plain.
  §4 Values  — `passed_values`, by induction on the reader's fuel.
  §5 Objects — the bytes of an object begin and end with its braces.

The main statement is `feed_object`: the bytes of an object are one span.
-/
import Mathlib.Data.List.TakeWhile
import Runwatch.Json.Reader
import Runwatch.Proofs.Telemetry.Characters

namespace Runwatch.Json

open Telemetry (Scan charMark)
open Text (isDigit hexValue?)

/-! ## §1 Passing -/

/-- A scanner with a text held besides. -/
def keep (s : Scan Char) (w : List Char) : Scan Char := { s with held := w.reverse ++ s.held }

/-- A scanner in a span and outside its string literals. -/
structure IsBare (s : Scan Char) : Prop where
  deep : s.depth ≠ 0
  unquoted : s.inString = false
  unescaped : s.escaped = false

/-- A scanner in a string literal, no backslash pending. -/
structure IsQuoted (s : Scan Char) : Prop where
  quoted : s.inString = true
  unescaped : s.escaped = false

theorem keep_keep (s : Scan Char) (u v : List Char) : keep (keep s u) v = keep s (u ++ v) := by
  simp [keep]

theorem keep_nil (s : Scan Char) : keep s [] = s := rfl

theorem IsBare.keep {s : Scan Char} (h : IsBare s) (w : List Char) : IsBare (keep s w) :=
  ⟨h.deep, h.unquoted, h.unescaped⟩

theorem IsQuoted.keep {s : Scan Char} (h : IsQuoted s) (w : List Char) : IsQuoted (keep s w) :=
  ⟨h.quoted, h.unescaped⟩

/-- Outside string literals the text is held and nothing else changes. -/
def Passes (w : List Char) : Prop :=
  ∀ s, IsBare s → s.feed charMark w = (keep s w, [])

/-- In a string literal the text is held and nothing else changes. -/
def PassesQuoted (w : List Char) : Prop :=
  ∀ s, IsQuoted s → s.feed charMark w = (keep s w, [])

theorem Passes.nil : Passes [] := fun s _ => by rw [Scan.feed_nil, keep_nil]

theorem Passes.append {u v : List Char} (hu : Passes u) (hv : Passes v) : Passes (u ++ v) := by
  intro s hs
  rw [Scan.feed_append, hu s hs, hv _ (hs.keep u), keep_keep]
  rfl

theorem PassesQuoted.nil : PassesQuoted [] := fun s _ => by rw [Scan.feed_nil, keep_nil]

theorem PassesQuoted.append {u v : List Char} (hu : PassesQuoted u) (hv : PassesQuoted v) :
    PassesQuoted (u ++ v) := by
  intro s hs
  rw [Scan.feed_append, hu s hs, hv _ (hs.keep u), keep_keep]
  rfl

/-- Characters that are no marks. -/
def IsPlain (w : List Char) : Prop := ∀ c ∈ w, charMark c = .plain

theorem Passes.plain {w : List Char} (h : IsPlain w) : Passes w := by
  intro s hs
  by_cases hne : w = []
  · rw [hne, Scan.feed_nil, keep_nil]
  · rw [Scan.feed_plain s hne h]
    simp [Scan.passed, keep, hs.unquoted, hs.deep]

theorem PassesQuoted.plain {w : List Char} (h : IsPlain w) : PassesQuoted w := by
  intro s hs
  by_cases hne : w = []
  · rw [hne, Scan.feed_nil, keep_nil]
  · rw [Scan.feed_plain s hne h]
    simp [Scan.passed, keep, hs.quoted, hs.unescaped]

/-- Braces around a text that passes. The opening one takes the scanner a
level down, from which the closing one brings it back. -/
theorem Passes.braces {w : List Char} (h : Passes w) : Passes ('\x7b' :: (w ++ ['\x7d'])) := by
  intro s hs
  obtain ⟨held, depth, inString, escaped⟩ := s
  obtain ⟨hdeep, rfl, rfl⟩ := hs
  obtain ⟨d, rfl⟩ := Nat.exists_eq_succ_of_ne_zero hdeep
  have hin : IsBare ⟨'\x7b' :: held, d + 2, false, false⟩ := ⟨by simp, rfl, rfl⟩
  have hopen : Scan.step charMark ⟨held, d + 1, false, false⟩ '\x7b'
      = (⟨'\x7b' :: held, d + 2, false, false⟩, none) := rfl
  rw [Scan.feed_cons, hopen, Scan.feed_append, h _ hin, Scan.feed_cons]
  simp [keep, Scan.step, charMark]

/-- Quotes around a text that passes in a string literal. -/
theorem Passes.quotes {w : List Char} (h : PassesQuoted w) : Passes ('"' :: (w ++ ['"'])) := by
  intro s hs
  obtain ⟨held, depth, inString, escaped⟩ := s
  obtain ⟨hdeep, rfl, rfl⟩ := hs
  obtain ⟨d, rfl⟩ := Nat.exists_eq_succ_of_ne_zero hdeep
  have hin : IsQuoted ⟨'"' :: held, d + 1, true, false⟩ := ⟨rfl, rfl⟩
  have hopen : Scan.step charMark ⟨held, d + 1, false, false⟩ '"'
      = (⟨'"' :: held, d + 1, true, false⟩, none) := rfl
  rw [Scan.feed_cons, hopen, Scan.feed_append, h _ hin, Scan.feed_cons]
  simp [keep, Scan.step, charMark]

/-- What stands between two points of a text passes. -/
def Passed (cs rest : List Char) : Prop := ∃ w, cs = w ++ rest ∧ Passes w

theorem Passed.refl (cs : List Char) : Passed cs cs := ⟨[], rfl, .nil⟩

theorem Passed.trans {as bs cs : List Char} (h₁ : Passed as bs) (h₂ : Passed bs cs) :
    Passed as cs := by
  obtain ⟨u, rfl, hu⟩ := h₁
  obtain ⟨v, rfl, hv⟩ := h₂
  exact ⟨u ++ v, (List.append_assoc ..).symm, hu.append hv⟩

instance : Trans Passed Passed Passed := ⟨Passed.trans⟩

theorem Passed.plain {w rest : List Char} (h : IsPlain w) : Passed (w ++ rest) rest :=
  ⟨w, rfl, .plain h⟩

theorem Passed.cons {c : Char} {rest : List Char} (h : charMark c = .plain) :
    Passed (c :: rest) rest :=
  .plain (w := [c]) (by simpa [IsPlain] using h)

theorem charMark_of_isGap {c : Char} (h : isGap c = true) : charMark c = .plain :=
  Telemetry.charMark_of_class isGap h rfl rfl rfl rfl

/-- Blanks between tokens pass. -/
theorem passed_skipGap (cs : List Char) : Passed cs (skipGap cs) := by
  refine ⟨cs.takeWhile isGap, List.takeWhile_append_dropWhile.symm, .plain ?_⟩
  intro c hc
  exact charMark_of_isGap (List.mem_takeWhile_imp hc)

/-! ## §2 Strings -/

/-- A backslash takes the character behind it along. -/
theorem PassesQuoted.escape (c : Char) : PassesQuoted ['\\', c] := by
  intro s hs
  obtain ⟨held, depth, inString, escaped⟩ := s
  obtain ⟨rfl, rfl⟩ := hs
  simp [Scan.feed_cons, Scan.step, charMark, keep]

/-- Braces do not count in a string literal. -/
theorem PassesQuoted.char {c : Char} (hq : c ≠ '"') (hb : c ≠ '\\') : PassesQuoted [c] := by
  intro s hs
  obtain ⟨held, depth, inString, escaped⟩ := s
  obtain ⟨rfl, rfl⟩ := hs
  have hquote : charMark c ≠ .quote := by grind [charMark]
  have hback : charMark c ≠ .backslash := by grind [charMark]
  rw [Scan.feed_cons]
  cases hm : charMark c <;> simp_all [Scan.step, keep]

/-- A hexadecimal digit is plain. -/
theorem charMark_of_hexValue? {c : Char} {n : Nat} (h : hexValue? c = some n) :
    charMark c = .plain :=
  Telemetry.charMark_of_class (fun c => (hexValue? c).isSome) (by simp [h]) rfl rfl rfl rfl

/-- The four digits of an escaped code unit are plain. -/
theorem isPlain_of_codeUnit? {a b c d : Char} {u : Nat} (h : codeUnit? a b c d = some u) :
    IsPlain [a, b, c, d] := by
  simp only [codeUnit?, Option.bind_eq_bind, Option.bind_eq_some_iff] at h
  obtain ⟨_, ha, _, hb, _, hc, _, hd, _⟩ := h
  simp [IsPlain, charMark_of_hexValue? ha, charMark_of_hexValue? hb, charMark_of_hexValue? hc,
    charMark_of_hexValue? hd]

theorem PassesQuoted.codeUnit {a b c d : Char} {u : Nat} (h : codeUnit? a b c d = some u) :
    PassesQuoted ['\\', 'u', a, b, c, d] :=
  (PassesQuoted.escape 'u').append (.plain (isPlain_of_codeUnit? h))

/-- What stands up to the closing quote passes in a string literal. -/
def PassedQuoted (cs rest : List Char) : Prop := ∃ w, cs = w ++ '"' :: rest ∧ PassesQuoted w

theorem PassedQuoted.append {w cs rest : List Char} (hw : PassesQuoted w)
    (h : PassedQuoted cs rest) : PassedQuoted (w ++ cs) rest := by
  obtain ⟨v, rfl, hv⟩ := h
  exact ⟨w ++ v, (List.append_assoc ..).symm, hw.append hv⟩

theorem passedQuoted_readStringOnto {done cs rest : List Char} {text : String}
    (h : readStringOnto done cs = some (text, rest)) : PassedQuoted cs rest := by
  fun_induction readStringOnto done cs with
  | case2 done cs =>
    obtain ⟨-, rfl⟩ := Prod.mk.inj (Option.some.inj h)
    exact ⟨[], rfl, .nil⟩
  | case5 done a b c d high hu _ a' b' c' d' cs low hl _ ih =>
    exact .append (.codeUnit hu) (.append (.codeUnit hl) (ih h))
  | case9 done a b c d cs u hu _ _ ih => exact .append (.codeUnit hu) (ih h)
  | case10 done c cs _ e _ ih => exact .append (.escape c) (ih h)
  | case13 done c cs hquote _ hescape _ ih =>
    by_cases hback : c = '\\'
    · cases cs with
      | nil => simp [readStringOnto] at h
      | cons c' cs => exact (hescape c' cs hback rfl).elim
    · exact .append (.char hquote hback) (ih h)
  | _ => cases h

theorem passed_readString {cs rest : List Char} {text : String}
    (h : readString cs = some (text, rest)) : Passed ('"' :: cs) rest := by
  obtain ⟨w, rfl, hw⟩ := passedQuoted_readStringOnto h
  exact ⟨'"' :: (w ++ ['"']), by simp, .quotes hw⟩

/-! ## §3 Numbers -/

theorem charMark_of_isDigit {c : Char} (h : isDigit c = true) : charMark c = .plain :=
  Telemetry.charMark_of_class isDigit h rfl rfl rfl rfl

/-- A run of digits passes. -/
theorem passed_digits (cs : List Char) : Passed cs (cs.dropWhile isDigit) := by
  refine ⟨cs.takeWhile isDigit, List.takeWhile_append_dropWhile.symm, .plain ?_⟩
  intro c hc
  exact charMark_of_isDigit (List.mem_takeWhile_imp hc)

theorem passed_readExponent {negative : Bool} {significand : Nat} {start : Int}
    {cs rest : List Char} {n : Number}
    (h : readExponent negative significand start cs = some (n, rest)) : Passed cs rest := by
  unfold readExponent at h
  split at h
  next down digits hsign =>
  have hdigits : Passed cs digits := by
    split at hsign
    · obtain ⟨-, rfl⟩ := Prod.mk.inj hsign; exact .cons rfl
    · obtain ⟨-, rfl⟩ := Prod.mk.inj hsign; exact .cons rfl
    · obtain ⟨-, rfl⟩ := Prod.mk.inj hsign; exact .refl _
  -- Whatever the value is, the rest stands behind the digits.
  have hrest : digits.dropWhile isDigit = rest := by
    dsimp only at h
    split at h
    · cases h
    · split at h
      · split at h
        · cases h
        · exact (Prod.mk.inj (Option.some.inj h)).2
      · obtain ⟨_, -, hd⟩ := Option.map_eq_some_iff.mp h
        exact (Prod.mk.inj hd).2
  exact hdigits.trans (hrest ▸ passed_digits digits)

/-- An exponent, if there is one. -/
theorem passed_exponent {negative : Bool} {significand : Nat} {exponent : Int}
    {cs rest : List Char} {n : Number}
    (h : (match cs with
      | 'e' :: cs => readExponent negative significand exponent cs
      | 'E' :: cs => readExponent negative significand exponent cs
      | _ => (assembleDouble? negative significand exponent).map fun d => (.double d, cs))
        = some (n, rest)) : Passed cs rest := by
  split at h
  · exact .trans (.cons rfl) (passed_readExponent h)
  · exact .trans (.cons rfl) (passed_readExponent h)
  · obtain ⟨_, -, hd⟩ := Option.map_eq_some_iff.mp h
    obtain ⟨-, rfl⟩ := Prod.mk.inj hd
    exact .refl _

theorem passed_readFraction {negative : Bool} {significand : Nat} {start : Int}
    {cs rest : List Char} {n : Number}
    (h : readFraction negative significand start cs = some (n, rest)) : Passed cs rest := by
  unfold readFraction at h
  by_cases hpoint : (cs.head? == some '.') = true
  · simp only [hpoint, Bool.true_and, if_true] at h
    split at h
    · cases h
    · match cs, hpoint with
      | c :: cs, hpoint =>
        obtain rfl : c = '.' := by simpa using hpoint
        exact .trans (.cons rfl) (.trans (passed_digits cs) (passed_exponent h))
  · simp only [hpoint, Bool.false_and, if_false, Bool.false_eq_true] at h
    exact passed_exponent h

theorem passed_readUnsigned {negative : Bool} {cs rest : List Char} {n : Number}
    (h : readUnsigned negative cs = some (n, rest)) : Passed cs rest := by
  unfold readUnsigned at h
  dsimp only at h
  refine (passed_digits cs).trans ?_
  split at h
  · cases h
  · cases h
  · split at h
    all_goals
      split at h
      · obtain ⟨_, -, hd⟩ := Option.map_eq_some_iff.mp h
        obtain ⟨-, rfl⟩ := Prod.mk.inj hd
        exact .refl _
      · exact passed_readFraction h

theorem passed_readNumber {cs rest : List Char} {n : Number}
    (h : readNumber cs = some (n, rest)) : Passed cs rest := by
  unfold readNumber at h
  split at h
  · exact .trans (.cons rfl) (passed_readUnsigned h)
  · exact passed_readUnsigned h

/-! ## §4 Values -/

theorem Passed.braces {cs rest : List Char} (h : Passed cs ('\x7d' :: rest)) :
    Passed ('\x7b' :: cs) rest := by
  obtain ⟨w, rfl, hw⟩ := h
  exact ⟨'\x7b' :: (w ++ ['\x7d']), by simp, .braces hw⟩

/-- What the reader takes for a value passes. -/
def ValuePasses (fuel : Nat) : Prop :=
  ∀ depth cs v rest, readValue fuel depth cs = some (v, rest) → Passed cs rest

/-- What it takes for elements passes, with the closing bracket. -/
def ElementsPass (fuel : Nat) : Prop :=
  ∀ depth done cs v rest, readElements fuel depth done cs = some (v, rest) → Passed cs rest

/-- What it takes for members is an object and passes, up to the closing
brace. -/
def MembersPass (fuel : Nat) : Prop :=
  ∀ depth done cs v rest, readMembers fuel depth done cs = some (v, rest) →
    Passed cs ('\x7d' :: rest) ∧ ∃ ms, v = .object ms

/-- The text of an object behind its opening brace. -/
theorem passed_object {fuel : Nat} (depth : Nat) (hm : MembersPass fuel)
    {cs rest : List Char} {v : Value}
    (h : (match depth with
      | 0 => none
      | depth + 1 =>
        match skipGap cs with
        | '\x7d' :: rest => some (.object [], rest)
        | rest => readMembers fuel depth [] rest) = some (v, rest)) :
    Passed cs ('\x7d' :: rest) ∧ ∃ ms, v = .object ms := by
  split at h
  · cases h
  · have hgap := passed_skipGap cs
    split at h
    · next rest' heq =>
      obtain ⟨rfl, rfl⟩ := Prod.mk.inj (Option.some.inj h)
      exact ⟨heq ▸ hgap, [], rfl⟩
    · obtain ⟨hpassed, hobject⟩ := hm _ _ _ _ _ h
      exact ⟨hgap.trans hpassed, hobject⟩

theorem passed_word {w : List Char} {cs rest : List Char} (hw : IsPlain w) (h : cs = w ++ rest) :
    Passed cs rest :=
  h ▸ .plain hw

theorem ValuePasses.succ {fuel : Nat} (he : ElementsPass fuel) (hm : MembersPass fuel) :
    ValuePasses (fuel + 1) := by
  intro depth cs v rest h
  refine (passed_skipGap cs).trans ?_
  unfold readValue at h
  split at h
  · next heq =>
    obtain ⟨-, rfl⟩ := Prod.mk.inj (Option.some.inj h)
    exact passed_word (w := ['n', 'u', 'l', 'l']) (by simp [IsPlain, charMark]) heq
  · next heq =>
    obtain ⟨-, rfl⟩ := Prod.mk.inj (Option.some.inj h)
    exact passed_word (w := ['t', 'r', 'u', 'e']) (by simp [IsPlain, charMark]) heq
  · next heq =>
    obtain ⟨-, rfl⟩ := Prod.mk.inj (Option.some.inj h)
    exact passed_word (w := ['f', 'a', 'l', 's', 'e']) (by simp [IsPlain, charMark]) heq
  · next heq =>
    obtain ⟨⟨text, rest'⟩, hs, hv⟩ := Option.map_eq_some_iff.mp h
    obtain ⟨-, rfl⟩ := Prod.mk.inj hv
    rw [heq]
    exact passed_readString hs
  · next inner heq =>
    rw [heq]
    refine .trans (.cons rfl) (.trans (passed_skipGap inner) ?_)
    split at h
    · cases h
    · split at h
      · next heq' =>
        obtain ⟨-, rfl⟩ := Prod.mk.inj (Option.some.inj h)
        rw [heq']
        exact .cons rfl
      · exact he _ _ _ _ _ h
  · next heq =>
    rw [heq]
    exact .braces (passed_object _ hm h).1
  · obtain ⟨⟨n, rest'⟩, hn, hv⟩ := Option.map_eq_some_iff.mp h
    obtain ⟨-, rfl⟩ := Prod.mk.inj hv
    exact passed_readNumber hn

theorem ElementsPass.succ {fuel : Nat} (hv : ValuePasses fuel) (he : ElementsPass fuel) :
    ElementsPass (fuel + 1) := by
  intro depth done cs v rest h
  unfold readElements at h
  split at h
  · cases h
  · next w behind hread =>
    refine (hv _ _ _ _ hread).trans ((passed_skipGap behind).trans ?_)
    split at h
    · next heq => rw [heq]; exact .trans (.cons rfl) (he _ _ _ _ _ h)
    · next heq =>
      obtain ⟨-, rfl⟩ := Prod.mk.inj (Option.some.inj h)
      rw [heq]
      exact .cons rfl
    · cases h

theorem MembersPass.succ {fuel : Nat} (hv : ValuePasses fuel) (hm : MembersPass fuel) :
    MembersPass (fuel + 1) := by
  intro depth done cs v rest h
  unfold readMembers at h
  split at h
  · next behind hquote =>
    split at h
    · cases h
    · next name colon hname =>
      split at h
      · next text hcolon =>
        split at h
        · cases h
        · next w after hread =>
          -- The name, the colon and the value, each behind its blanks.
          have hmember : Passed cs (skipGap after) :=
            calc Passed cs ('"' :: behind) := hquote ▸ passed_skipGap cs
              Passed _ colon := passed_readString hname
              Passed _ (':' :: text) := hcolon ▸ passed_skipGap colon
              Passed _ text := .cons rfl
              Passed _ after := hv _ _ _ _ hread
              Passed _ (skipGap after) := passed_skipGap after
          split at h
          · next heq =>
            obtain ⟨hrest, hobject⟩ := hm _ _ _ _ _ h
            exact ⟨hmember.trans (heq ▸ .trans (.cons rfl) hrest), hobject⟩
          · next heq =>
            obtain ⟨rfl, rfl⟩ := Prod.mk.inj (Option.some.inj h)
            exact ⟨heq ▸ hmember, _, rfl⟩
          · cases h
      · cases h
  · cases h

/-- What the reader takes passes, by induction on its fuel: each of its
three functions calls the others with less. -/
theorem passed_values (fuel : Nat) : ValuePasses fuel ∧ ElementsPass fuel ∧ MembersPass fuel := by
  induction fuel with
  | zero =>
    refine ⟨?_, ?_, ?_⟩
    · intro depth cs v rest h; simp [readValue] at h
    · intro depth done cs v rest h; simp [readElements] at h
    · intro depth done cs v rest h; simp [readMembers] at h
  | succ fuel ih =>
    obtain ⟨hv, he, hm⟩ := ih
    exact ⟨.succ he hm, .succ hv he, .succ hv hm⟩

/-! ## §5 Objects -/

/-- A text that begins with an opening brace is that of an object: its
inside passes, and only blanks follow the closing brace. -/
theorem passes_of_parseChars? {cs : List Char} {v : Value}
    (h : parseChars? ('\x7b' :: cs) = some v) :
    (∃ w gap, cs = w ++ '\x7d' :: gap ∧ Passes w ∧ ∀ c ∈ gap, isGap c = true)
      ∧ ∃ ms, v = .object ms := by
  unfold parseChars? at h
  split at h
  · next v' rest hread =>
    split at h
    · next hblank =>
      obtain rfl := Option.some.inj h
      have hskip : skipGap ('\x7b' :: cs) = '\x7b' :: cs := rfl
      simp only [readValue, hskip] at hread
      have hobject : Passed cs ('\x7d' :: rest) ∧ ∃ ms, v' = .object ms :=
        passed_object maxNesting (passed_values (2 * ('\x7b' :: cs).length + 1)).2.2 hread
      obtain ⟨⟨w, rfl, hw⟩, hms⟩ := hobject
      have hgap : ∀ c ∈ rest, isGap c = true := by
        simpa [skipGap, List.dropWhile_eq_nil_iff] using hblank
      exact ⟨⟨w, rest, rfl, hw, hgap⟩, hms⟩
    · cases h
  · cases h

/-- Bytes that begin with an opening brace and decode, as characters. -/
theorem chars_of_decode? {bytes : List UInt8} {cs : List Char}
    (h : Text.Utf8.decode? (0x7B :: bytes) = some cs) :
    ∃ rest, cs = '\x7b' :: rest ∧ bytes = Text.Utf8.encode rest := by
  have hfirst : Text.Utf8.decode? (0x7B :: bytes) = Text.Utf8.decodeOnto ['\x7b'] bytes := by
    rw [Text.Utf8.decode?, Text.Utf8.decodeOnto.eq_def]
    rfl
  exact Text.Utf8.reads_of_decodeOnto (hfirst ▸ h)

/-- Bytes that begin with an opening brace write an object or nothing. -/
theorem object_of_parseBytes? {bytes : List UInt8} {v : Value}
    (h : parseBytes? (0x7B :: bytes) = some v) : ∃ ms, v = .object ms := by
  obtain ⟨cs, hdecode, hparse⟩ := Option.bind_eq_some_iff.mp h
  obtain ⟨rest, rfl, -⟩ := chars_of_decode? hdecode
  exact (passes_of_parseChars? hparse).2

/-- The last byte of blanks closes no brace. -/
theorem getLast?_encode_gap {gap : List Char} (hne : gap ≠ []) (h : ∀ c ∈ gap, isGap c = true) :
    ∃ b, (Text.Utf8.encode gap).getLast? = some b ∧ b ≠ 0x7D := by
  obtain ⟨front, c, rfl⟩ := List.eq_nil_or_concat gap |>.resolve_left hne
  have hc := h c (by simp)
  simp only [isGap, Bool.or_eq_true, beq_iff_eq] at hc
  rcases hc with ((rfl | rfl) | rfl) | rfl <;> simp [Text.Utf8.encodeChar]

/-- A scanner outside any span takes a text in braces as one span, if its
inside passes. -/
theorem feed_braces {w : List Char} (h : Passes w) :
    Scan.idle.feed charMark ('\x7b' :: (w ++ ['\x7d']))
      = (Scan.idle, ['\x7b' :: (w ++ ['\x7d'])]) := by
  have hbare : IsBare ⟨['\x7b'], 1, false, false⟩ := ⟨by simp, rfl, rfl⟩
  have hopen : Scan.step charMark Scan.idle '\x7b' = (⟨['\x7b'], 1, false, false⟩, none) := rfl
  rw [Scan.feed_cons, hopen, Scan.feed_append, h _ hbare, Scan.feed_cons]
  simp [keep, Scan.step, charMark, Scan.idle]

/-- A scanner outside any span takes the text of an object as one span. -/
theorem feed_object {bytes : List UInt8} {v : Value} (hfirst : bytes.head? = some 0x7B)
    (hlast : bytes.getLast? = some 0x7D) (h : parseBytes? bytes = some v) :
    Scan.idle.feed Telemetry.byteMark bytes = (Scan.idle, [bytes]) := by
  match bytes, hfirst with
  | _ :: bytes, rfl =>
    obtain ⟨cs, hdecode, hparse⟩ := Option.bind_eq_some_iff.mp h
    obtain ⟨_, rfl, rfl⟩ := chars_of_decode? hdecode
    obtain ⟨⟨w, gap, rfl, hw, hgap⟩, -⟩ := passes_of_parseChars? hparse
    have hnil : gap = [] := by
      apply Classical.byContradiction
      intro hne
      have hcut : 0x7B :: Text.Utf8.encode (w ++ '\x7d' :: gap)
          = (0x7B :: (Text.Utf8.encode w ++ [0x7D])) ++ Text.Utf8.encode gap := by
        simp [Text.Utf8.encodeChar]
      obtain ⟨b, hb, hne'⟩ := getLast?_encode_gap hne hgap
      rw [hcut, List.getLast?_append, hb] at hlast
      exact hne' (Option.some.inj hlast)
    subst hnil
    have hencode : 0x7B :: Text.Utf8.encode (w ++ ['\x7d'])
        = Text.Utf8.encode ('\x7b' :: (w ++ ['\x7d'])) := rfl
    have hfeed := Scan.feed_encode Scan.idle ('\x7b' :: (w ++ ['\x7d']))
    rw [feed_braces hw] at hfeed
    rw [hencode]
    exact hfeed

end Runwatch.Json
