/-
Runwatch.Proofs.Token.Naming — which texts name a tier of the push service.

A text is trimmed and put into lowercase before it is compared with the words
of the tiers. That a letter of some script could be taken for one of theirs
is ruled out: a text names a tier exactly if one of its words stands in it
between blanks, with small letters or capitals (`Environment.IsNamedBy`). The
column of a row is read in the same way.

The main statement is `Environment.named_exactly`.
-/
import Runwatch.Proofs.Json.Records
import Runwatch.Proofs.Text.Blank
import Runwatch.Proofs.Text.Lowercase
import Runwatch.Store.Table

namespace Runwatch

open Json (bind_eq_error bind_eq_ok)
open Store (Row)
open Text (Cased IsOwn TrimsTo)

namespace Environment

/-- The words of a tier. -/
def words : Environment → List String
  | .development => ["development", "sandbox"]
  | .production => ["production"]

/-- One of the words of a tier is all that stands between the blanks of a
text, its letters small or capital. -/
def IsNamedBy (e : Environment) (s : String) : Prop :=
  ∃ core, TrimsTo s core ∧ ∃ word ∈ e.words, Cased word.toList core

theorem isOwn_of_mem_words {e : Environment} {word : String} (h : word ∈ e.words) :
    ∀ w ∈ word.toList, IsOwn w := by
  have hall : (e.words.all fun word => word.toList.all (IsOwn ·)) = true := by
    cases e <;> decide
  intro w hw
  simpa using List.all_eq_true.mp (List.all_eq_true.mp hall word h) w hw

theorem parse_eq_ok_iff_mem (s : String) (e : Environment) :
    parse s = .ok e ↔ Text.lowercase (Text.trimmed s) ∈ e.words := by
  unfold parse
  generalize Text.lowercase (Text.trimmed s) = word
  by_cases hdev : word = "development"
  · subst hdev
    cases e <;> decide
  · by_cases hsandbox : word = "sandbox"
    · subst hsandbox
      cases e <;> decide
    · by_cases hprod : word = "production"
      · subst hprod
        cases e <;> decide
      · cases e <;> simp [words, hdev, hsandbox, hprod]

theorem lowercase_trimmed {s : String} {core : List Char} (h : TrimsTo s core) :
    Text.lowercase (Text.trimmed s) = String.ofList (Text.lowerFrom [] core) := by
  rw [Text.trimsTo_iff.mp h, Text.lowercase, String.toList_ofList]

/-- A text is read as a tier exactly if it names the tier. -/
theorem parse_eq_ok_iff (s : String) (e : Environment) : parse s = .ok e ↔ e.IsNamedBy s := by
  have hspelled : ∀ core, ∀ word ∈ e.words,
      String.ofList (Text.lowerFrom [] core) = word ↔ Cased word.toList core := by
    intro core word hword
    rw [← Text.lowerFrom_eq_iff (isOwn_of_mem_words hword) [], ← String.toList_inj,
      String.toList_ofList]
  rw [parse_eq_ok_iff_mem]
  constructor
  · intro h
    obtain ⟨core, hcore⟩ := Text.exists_trimsTo s
    refine ⟨core, hcore, _, h, (hspelled core _ h).mp ?_⟩
    rw [lowercase_trimmed hcore]
  · rintro ⟨core, hcore, word, hword, hcased⟩
    rwa [lowercase_trimmed hcore, (hspelled core word hword).mpr hcased]

theorem IsNamedBy.ascii {e : Environment} {s : String} (h : e.IsNamedBy s) {core : List Char}
    (hcore : TrimsTo s core) : ∀ c ∈ core, c.toNat < 0x80 := by
  obtain ⟨core', hcore', word, hword, hcased⟩ := h
  have hsame : core = core' :=
    String.ofList_injective ((Text.trimsTo_iff.mp hcore).symm.trans (Text.trimsTo_iff.mp hcore'))
  exact hsame ▸ hcased.ascii fun w hw => (isOwn_of_mem_words hword w hw).1

end Environment

/-! ## Rows -/

namespace Store.Row

theorem readEnvironment_eq_ok_iff (word : String) (e : Environment) :
    readEnvironment word = .ok e ↔ e.IsNamedBy word := by
  rw [← Environment.parse_eq_ok_iff, readEnvironment]
  cases Environment.parse word <;> simp

theorem readEnvironment_eq_error_iff (word : String) :
    readEnvironment word = .error (.environment word) ↔ ∀ e : Environment, ¬ e.IsNamedBy word := by
  simp only [← readEnvironment_eq_ok_iff]
  unfold readEnvironment
  cases Environment.parse word <;> simp

/-- How a row is read by its column for the tier. -/
structure ReadsTier (r : Row) : Prop where
  column : ∀ e, readEnvironment r.environment = .ok e ↔ e.IsNamedBy r.environment
  /-- The address in a row has the tier that the column names; without such a
  tier there is none. -/
  address : ∀ e, (∃ a, r.readAddress = .ok a ∧ a.environment = e) ↔
    r.token.isSome ∧ e.IsNamedBy r.environment
  /-- So has the record. -/
  record : ∀ t, r.readRecord = .ok t → t.environment.IsNamedBy r.environment
  /-- The column is to blame exactly if it names no tier. -/
  refused : r.token.isSome → (r.readRecord = .error (.environment r.environment) ↔
    ∀ e : Environment, ¬ e.IsNamedBy r.environment)

theorem readToken_eq_ok_iff (r : Row) (token : String) :
    r.readToken = .ok token ↔ r.token = some token := by
  unfold readToken
  cases r.token <;> simp

theorem readTime_ne_environment (text word : String) :
    readTime text ≠ .error (.environment word) := by
  unfold readTime
  cases Time.parseStrict text <;> simp

theorem readTime?_ne_environment (text : Option String) (word : String) :
    readTime? text ≠ .error (.environment word) := by
  cases text with
  | none => nofun
  | some text =>
    have htime := readTime_ne_environment text word
    rw [readTime?]
    cases h : readTime text with
    | ok t => nofun
    | error cause => exact fun heq => htime (h.trans (congrArg _ (Except.error.inj heq)))

theorem readsTier (r : Row) : r.ReadsTier := by
  refine ⟨readEnvironment_eq_ok_iff _, fun e => ?address, fun t ht => ?record,
    fun htoken => ?refused⟩
  case address =>
    simp only [readAddress, bind_eq_ok, readToken_eq_ok_iff, readEnvironment_eq_ok_iff,
      Option.isSome_iff_exists]
    constructor
    · rintro ⟨a, ⟨token, htoken, e', he, ha⟩, rfl⟩
      obtain rfl := Except.ok.inj ha
      exact ⟨⟨token, htoken⟩, he⟩
    · rintro ⟨⟨token, htoken⟩, he⟩
      exact ⟨_, ⟨token, htoken, e, he, rfl⟩, rfl⟩
  case record =>
    simp only [readRecord, bind_eq_ok, readEnvironment_eq_ok_iff] at ht
    obtain ⟨token, -, e, he, created, -, updated, -, invalidated, -, ht⟩ := ht
    obtain rfl := Except.ok.inj ht
    exact he
  case refused =>
    obtain ⟨token, htoken⟩ := Option.isSome_iff_exists.mp htoken
    have hread := (readToken_eq_ok_iff r token).mpr htoken
    rw [← readEnvironment_eq_error_iff]
    constructor
    · intro h
      -- The token is there, and no time is refused for the tier.
      rcases bind_eq_error.mp h with h | ⟨_, -, h⟩
      · cases hread.symm.trans h
      rcases bind_eq_error.mp h with h | ⟨e, -, h⟩
      · exact h
      rcases bind_eq_error.mp h with h | ⟨created, -, h⟩
      · exact absurd h (readTime_ne_environment _ _)
      rcases bind_eq_error.mp h with h | ⟨updated, -, h⟩
      · exact absurd h (readTime_ne_environment _ _)
      rcases bind_eq_error.mp h with h | ⟨invalidated, -, h⟩
      · exact absurd h (readTime?_ne_environment _ _)
      · cases h
    · intro h
      rw [readRecord, hread, h]
      rfl

end Store.Row

/-- **Tiers are named by their words and by nothing else.** A text is read as
a tier exactly if a word of the tier stands in it between blanks, in small
letters or capitals. So there is no character beyond ASCII between the blanks
of a text that is read, whatever its lowercase may be. The rows of a table are
read by the same rule. -/
theorem Environment.named_exactly :
    (∀ s e, parse s = .ok e ↔ e.IsNamedBy s) ∧
    (∀ s e core, parse s = .ok e → TrimsTo s core → ∀ c ∈ core, c.toNat < 0x80) ∧
    ∀ row : Row, row.ReadsTier := by
  refine ⟨parse_eq_ok_iff, fun s e core he hcore => ?_, Row.readsTier⟩
  exact ((parse_eq_ok_iff s e).mp he).ascii hcore

/-- A word of the development tier, in capitals but for one letter, between
blanks of other scripts. -/
def shouted : String := "\u3000SANDbOX\u2028"

theorem shouted_named_exactly :
    Environment.parse shouted = .ok .development ∧ TrimsTo shouted "SANDbOX".toList ∧
      Environment.development.IsNamedBy shouted ∧ ∀ c ∈ "SANDbOX".toList, c.toNat < 0x80 := by
  have hread : Environment.parse shouted = .ok .development := by decide
  have hcore : TrimsTo shouted "SANDbOX".toList := Text.trimsTo_iff.mpr (by decide)
  exact ⟨hread, hcore, (Environment.named_exactly.1 _ _).mp hread,
    Environment.named_exactly.2.1 _ _ _ hread hcore⟩

/-- The dotted capital has a plain letter in its lowercase, but a second
character as well. -/
example : Environment.parse "Product\u0130on" = .error ⟨"producti\u0307on"⟩ := by decide

end Runwatch
