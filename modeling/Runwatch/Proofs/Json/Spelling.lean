/-
Runwatch.Proofs.Json.Spelling — the compact text of a value, by the grammar.

`Spells cs v` says that `cs` is a JSON text without blanks and that it stands for
`v`. It is the grammar: a character of a string may be escaped in any way, and
a double is any numeral that rounds to it. Of the reader it has the meaning of
an escape only, and nothing of the writer. The writer gives such a text
(`spells_compact`) for every value JSON has a text for (`Expressible`), that is
for all but infinities and NaNs.

  §1 Grammar — texts, numbers and values.
  §2 Lines   — no text has a control character in it, so it is one line.
  §3 Writing — what is written spells the value.

The reader gives back what is written only as far as numbers are whole
(`parse?_compact_sorted`): it finds a double by multiplying, and what it finds
need not be the nearest.
-/
import Runwatch.Proofs.Double.Numeral
import Runwatch.Proofs.Json.Regular
import Runwatch.Proofs.Json.RoundTrip

namespace Runwatch.Json

open Text (isDigit natOfDigits)

/-! ## §1 Grammar -/

/-- The ways to write a character inside a string. -/
inductive SpellsChar : List Char → Char → Prop where
  | plain {c : Char} (quote : c ≠ '"') (backslash : c ≠ '\\') (control : ¬ c.toNat < 0x20) :
      SpellsChar [c] c
  | letter {l c : Char} (h : simpleEscape? l = some c) : SpellsChar ['\\', l] c
  | code {a b c d : Char} {u : Nat} (h : codeUnit? a b c d = some u) (low : u < 0xD800) :
      SpellsChar ['\\', 'u', a, b, c, d] (Char.ofNat u)

/-- What stands between the quotes of a string. -/
inductive SpellsText : List Char → List Char → Prop where
  | nil : SpellsText [] []
  | cons {spelled cs text : List Char} {c : Char} (first : SpellsChar spelled c)
      (others : SpellsText cs text) : SpellsText (spelled ++ cs) (c :: text)

/-- A text in quotes. -/
def quoted (cs : List Char) : List Char := '"' :: cs ++ ['"']

/-- The text of a number. That of a double shows that it is one. -/
inductive SpellsNumber : List Char → Number → Prop where
  | natural {cs : List Char} {n : UInt64} (whole : IsWholePart cs)
      (value : natOfDigits 0 cs = n.toNat) : SpellsNumber cs (.natural n)
  | negative {cs : List Char} {below : Fin negatives} (whole : IsWholePart cs)
      (value : natOfDigits 0 cs = below + 1) : SpellsNumber ('-' :: cs) (.negative below)
  | double {cs : List Char} {x : ℚ} {d : Double} (finite : d.isFinite = true)
      (numeral : Numeral cs x) (rounds : Double.RoundsTo x d) (marked : '.' ∈ cs ∨ 'e' ∈ cs) :
      SpellsNumber ((if d.isNegative then ['-'] else []) ++ cs) (.double d)

/-- A member of an object with its text. -/
structure Entry where
  spelledName : List Char
  name : String
  spelledValue : List Char
  value : Value

namespace Entry

def text (e : Entry) : List Char := quoted e.spelledName ++ ':' :: e.spelledValue

def member (e : Entry) : String × Value := (e.name, e.value)

end Entry

/-- The text of a value. The members of an object stand in their order. -/
inductive Spells : List Char → Value → Prop where
  | null : Spells ['n', 'u', 'l', 'l'] .null
  | true : Spells ['t', 'r', 'u', 'e'] (.bool true)
  | false : Spells ['f', 'a', 'l', 's', 'e'] (.bool false)
  | number {cs : List Char} {n : Number} (h : SpellsNumber cs n) : Spells cs (.number n)
  | string {cs : List Char} {s : String} (h : SpellsText cs s.toList) :
      Spells (quoted cs) (.string s)
  | array {elements : List (List Char × Value)} (h : ∀ e ∈ elements, Spells e.1 e.2) :
      Spells ('[' :: [','].intercalate (elements.map (·.1)) ++ [']'])
        (.array (elements.map (·.2)))
  | object {entries : List Entry} (names : ∀ e ∈ entries, SpellsText e.spelledName e.name.toList)
      (values : ∀ e ∈ entries, Spells e.spelledValue e.value) :
      Spells ('\x7b' :: [','].intercalate (entries.map Entry.text) ++ ['\x7d'])
        (.object (entries.map Entry.member))

/-! ## §2 Lines -/

/-- No control character, so no end of a line either. -/
def IsClean (cs : List Char) : Prop := ∀ c ∈ cs, ¬ c.toNat < 0x20

theorem isClean_of_all {cs : List Char} (h : (cs.all fun c => 0x20 ≤ c.toNat) = true) :
    IsClean cs := fun c hc =>
  Nat.not_lt.mpr (of_decide_eq_true (List.all_eq_true.mp h c hc))

theorem IsClean.append {cs ds : List Char} (hcs : IsClean cs) (hds : IsClean ds) :
    IsClean (cs ++ ds) :=
  List.forall_mem_append.mpr ⟨hcs, hds⟩

theorem IsClean.cons {c : Char} {cs : List Char} (hc : ¬ c.toNat < 0x20) (hcs : IsClean cs) :
    IsClean (c :: cs) :=
  List.forall_mem_cons.mpr ⟨hc, hcs⟩

theorem isClean_digits {cs : List Char} (h : ∀ c ∈ cs, isDigit c = true) : IsClean cs := by
  intro c hc
  have hdigit := Text.isDigit_iff.mp (h c hc)
  omega

/-- Behind the first of several texts stands each other one with its comma. -/
theorem intercalate_comma (cs : List Char) (texts : List (List Char)) :
    [','].intercalate (cs :: texts) = cs ++ texts.flatMap (',' :: ·) := by
  induction texts generalizing cs with
  | nil => simp
  | cons ds texts ih => simp [List.intercalate_cons_cons, ih]

theorem isClean_intercalate {texts : List (List Char)} (h : ∀ cs ∈ texts, IsClean cs) :
    IsClean ([','].intercalate texts) := by
  cases texts with
  | nil => exact nofun
  | cons cs texts =>
    obtain ⟨hcs, htexts⟩ := List.forall_mem_cons.mp h
    rw [intercalate_comma]
    refine hcs.append fun c hc => ?_
    obtain ⟨ds, hds, hc⟩ := List.mem_flatMap.mp hc
    exact IsClean.cons (by decide) (htexts ds hds) c hc

/-- A control character is neither the letter of an escape nor a digit to
base sixteen. -/
theorem meaningless_of_control {c : Char} (h : c.toNat < 0x20) :
    simpleEscape? c = none ∧ Text.hexValue? c = none := by
  have hall : ∀ n < 0x20,
      simpleEscape? (Char.ofNat n) = none ∧ Text.hexValue? (Char.ofNat n) = none := by decide
  have hc := hall _ h
  rwa [Char.ofNat_toNat] at hc

theorem SpellsChar.isClean {cs : List Char} {c : Char} (h : SpellsChar cs c) : IsClean cs := by
  have hdigit {d : Char} {n : Nat} (hd : Text.hexValue? d = some n) : ¬ d.toNat < 0x20 := by
    intro hcontrol
    rw [(meaningless_of_control hcontrol).2] at hd
    cases hd
  cases h with
  | plain _ _ control => exact .cons control nofun
  | letter h =>
    refine .cons (by decide) (.cons (fun hcontrol => ?_) nofun)
    rw [(meaningless_of_control hcontrol).1] at h
    cases h
  | code h _ =>
    obtain ⟨_, hx, h⟩ := Option.bind_eq_some_iff.mp h
    obtain ⟨_, hy, h⟩ := Option.bind_eq_some_iff.mp h
    obtain ⟨_, hz, h⟩ := Option.bind_eq_some_iff.mp h
    obtain ⟨_, hw, -⟩ := Option.bind_eq_some_iff.mp h
    exact .cons (by decide) (.cons (by decide) (.cons (hdigit hx) (.cons (hdigit hy)
      (.cons (hdigit hz) (.cons (hdigit hw) nofun)))))

theorem SpellsText.isClean {cs text : List Char} (h : SpellsText cs text) : IsClean cs := by
  induction h with
  | nil => exact nofun
  | cons first _ ih => exact first.isClean.append ih

theorem isClean_quoted {cs : List Char} (h : IsClean cs) : IsClean (quoted cs) :=
  (IsClean.cons (by decide) h).append (.cons (by decide) nofun)

theorem isClean_numeral {cs : List Char} {x : ℚ} (h : Numeral cs x) : IsClean cs := by
  obtain ⟨hwhole, hfraction, hexponent⟩ := h
  refine ((isClean_digits hwhole.digits.2).append ?_).append ?_
  · cases hfraction with
    | absent => exact nofun
    | point h => exact .cons (by decide) (isClean_digits h.2)
  · cases hexponent with
    | absent => exact nofun
    | up h => exact .cons (by decide) (isClean_digits h.2)
    | down h => exact .cons (by decide) (.cons (by decide) (isClean_digits h.2))

theorem SpellsNumber.isClean {cs : List Char} {n : Number} (h : SpellsNumber cs n) :
    IsClean cs := by
  cases h with
  | natural whole _ => exact isClean_digits whole.digits.2
  | negative whole _ => exact .cons (by decide) (isClean_digits whole.digits.2)
  | double _ numeral _ _ =>
    refine .append ?_ (isClean_numeral numeral)
    split
    · exact .cons (by decide) nofun
    · exact nofun

/-- **The text of a value is one line.** -/
theorem Spells.isClean {cs : List Char} {v : Value} (h : Spells cs v) : IsClean cs := by
  induction h with
  | null | true | false => exact isClean_of_all rfl
  | number h => exact h.isClean
  | string h => exact isClean_quoted h.isClean
  | array _ ih =>
    refine (IsClean.cons (by decide) (isClean_intercalate ?_)).append (.cons (by decide) nofun)
    exact List.forall_mem_map.mpr ih
  | object names _ ih =>
    refine (IsClean.cons (by decide) (isClean_intercalate ?_)).append (.cons (by decide) nofun)
    exact List.forall_mem_map.mpr fun e he =>
      (isClean_quoted (names e he).isClean).append (.cons (by decide) (ih e he))

/-! ## §3 Writing -/

theorem spellsChar_escapedChar (c : Char) : SpellsChar (escapedChar c) c := by
  simp only [escapedChar, beq_iff_eq]
  split_ifs with hquote hback hb hf hn hr ht hcontrol
  · exact .letter (by rw [hquote]; rfl)
  · exact .letter (by rw [hback]; rfl)
  · exact .letter (by rw [hb]; rfl)
  · exact .letter (by rw [hf]; rfl)
  · exact .letter (by rw [hn]; rfl)
  · exact .letter (by rw [hr]; rfl)
  · exact .letter (by rw [ht]; rfl)
  · obtain ⟨x, y, z, w, hdigits, hu⟩ := codeUnit?_hexPadded hcontrol
    have hspelled := SpellsChar.code hu (by omega)
    rw [Char.ofNat_toNat] at hspelled
    rw [hdigits]
    exact hspelled
  · exact .plain hquote hback hcontrol

theorem spellsText_flatMap (text : List Char) : SpellsText (text.flatMap escapedChar) text := by
  induction text with
  | nil => exact .nil
  | cons c text ih => exact .cons (spellsChar_escapedChar c) ih

theorem stringOnto_eq (s : String) (rest : List Char) :
    stringOnto s rest = quoted (s.toList.flatMap escapedChar) ++ rest := by
  simp [stringOnto, quoted]

theorem spellsNumber_numberChars {n : Number} (h : n.IsFinite) :
    SpellsNumber (numberChars n) n := by
  cases n with
  | natural n => exact .natural (isWholePart_decimalChars _) (Text.natOfDigits_decimalChars _)
  | negative below => exact .negative (isWholePart_decimalChars _) (Text.natOfDigits_decimalChars _)
  | double d =>
    obtain ⟨cs, x, hchars, hnumeral, hrounds, hmarked⟩ := Double.exists_numeral doubleRange h
    rw [numberChars, hchars]
    exact .double h hnumeral hrounds hmarked

/-- Values JSON has a text for: their doubles are finite. -/
inductive Expressible : Value → Prop where
  | null : Expressible .null
  | bool (b : Bool) : Expressible (.bool b)
  | number {n : Number} (finite : n.IsFinite) : Expressible (.number n)
  | string (s : String) : Expressible (.string s)
  | array {vs : List Value} (elements : ∀ v ∈ vs, Expressible v) : Expressible (.array vs)
  | object {ms : Members} (members : ∀ m ∈ ms, Expressible m.2) : Expressible (.object ms)

theorem Regular.expressible {v : Value} (h : Regular v) : Expressible v := by
  induction h with
  | null => exact .null
  | bool b => exact .bool b
  | number finite => exact .number finite
  | string s => exact .string s
  | array _ ih => exact .array ih
  | object _ _ ih => exact .object ih

theorem Number.IsWhole.isFinite {n : Number} (h : n.IsWhole) : n.IsFinite := by
  cases n with
  | natural | negative => trivial
  | double d => exact h.elim

theorem Legible.expressible {depth : Nat} {v : Value} (h : Legible depth v) : Expressible v := by
  induction h with
  | null => exact .null
  | bool _ b => exact .bool b
  | number _ whole => exact .number whole.isFinite
  | string _ s => exact .string s
  | array _ ih => exact .array ih
  | object _ ih => exact .object ih

/-- A value is written as a text that spells it, in front of any rest. -/
def IsSpelled (v : Value) : Prop := ∃ cs, Spells cs v ∧ ∀ rest, valueOnto v rest = cs ++ rest

theorem exists_elements {vs : List Value} (h : ∀ v ∈ vs, IsSpelled v) :
    ∃ elements : List (List Char × Value), elements.map (·.2) = vs ∧
      (∀ e ∈ elements, Spells e.1 e.2) ∧
      ∀ rest, elementsOnto vs rest =
        (elements.map (·.1)).flatMap (',' :: ·) ++ ']' :: rest := by
  induction vs with
  | nil => exact ⟨[], rfl, nofun, fun _ => rfl⟩
  | cons v vs ih =>
    obtain ⟨⟨cs, hspells, hwritten⟩, hvs⟩ := List.forall_mem_cons.mp h
    obtain ⟨elements, rfl, hall, helements⟩ := ih hvs
    refine ⟨(cs, v) :: elements, rfl, List.forall_mem_cons.mpr ⟨hspells, hall⟩, fun rest => ?_⟩
    rw [elementsOnto, hwritten, helements]
    simp

theorem exists_entries {ms : Members} (h : ∀ m ∈ ms, IsSpelled m.2) :
    ∃ entries : List Entry, entries.map Entry.member = ms ∧
      (∀ e ∈ entries, SpellsText e.spelledName e.name.toList) ∧
      (∀ e ∈ entries, Spells e.spelledValue e.value) ∧
      ∀ rest, membersOnto ms rest =
        (entries.map Entry.text).flatMap (',' :: ·) ++ '\x7d' :: rest := by
  induction ms with
  | nil => exact ⟨[], rfl, nofun, nofun, fun _ => rfl⟩
  | cons m ms ih =>
    obtain ⟨⟨cs, hspells, hwritten⟩, hms⟩ := List.forall_mem_cons.mp h
    obtain ⟨entries, rfl, hnames, hvalues, hentries⟩ := ih hms
    refine ⟨⟨m.1.toList.flatMap escapedChar, m.1, cs, m.2⟩ :: entries, rfl,
      List.forall_mem_cons.mpr ⟨spellsText_flatMap _, hnames⟩,
      List.forall_mem_cons.mpr ⟨hspells, hvalues⟩, fun rest => ?_⟩
    rw [membersOnto, hwritten, hentries, stringOnto_eq]
    simp [Entry.text]

theorem Expressible.isSpelled {v : Value} (h : Expressible v) : IsSpelled v := by
  induction h with
  | null => exact ⟨_, .null, fun _ => rfl⟩
  | bool b =>
    cases b with
    | false => exact ⟨_, .false, fun _ => rfl⟩
    | true => exact ⟨_, .true, fun _ => rfl⟩
  | number finite => exact ⟨_, .number (spellsNumber_numberChars finite), fun _ => by rw [valueOnto]⟩
  | string s =>
    exact ⟨_, .string (spellsText_flatMap _), fun rest => by rw [valueOnto, stringOnto_eq]⟩
  | @array vs _ ih =>
    obtain ⟨elements, rfl, hall, helements⟩ := exists_elements ih
    refine ⟨_, .array hall, fun rest => ?_⟩
    cases elements with
    | nil => rfl
    | cons e elements =>
      have hrest := helements rest
      rw [List.map_cons, elementsOnto, List.map_cons, List.flatMap_cons] at hrest
      rw [List.map_cons, valueOnto, (List.cons.inj hrest).2, List.map_cons, intercalate_comma]
      simp
  | @object ms _ ih =>
    obtain ⟨entries, rfl, hnames, hvalues, hentries⟩ := exists_entries ih
    refine ⟨_, .object hnames hvalues, fun rest => ?_⟩
    cases entries with
    | nil => rfl
    | cons e entries =>
      have hrest := hentries rest
      rw [List.map_cons, Entry.member, membersOnto, List.map_cons, List.flatMap_cons] at hrest
      rw [List.map_cons, Entry.member, valueOnto, (List.cons.inj hrest).2, List.map_cons,
        intercalate_comma]
      simp

/-- **The compact text of a value spells it.** -/
theorem spells_compact {v : Value} (h : Expressible v) : Spells (compact v).toList v := by
  obtain ⟨cs, hspells, hwritten⟩ := h.isSpelled
  rw [compact, String.toList_ofList, hwritten, List.append_nil]
  exact hspells

end Runwatch.Json
