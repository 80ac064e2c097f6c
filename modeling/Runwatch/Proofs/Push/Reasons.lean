/-
Runwatch.Proofs.Push.Reasons — the reason that the body of a reply gives.

A reply looks into its body for one text and for nothing else. Read in full
instead, the body is a JSON value, and if that is an object with at most one
member `reason`, the reply gives the text of this member, or none if it is
no text (`reasonOf_object`). What the reply means for the device token then
depends on its status and on this member alone.

The main statement is `Reply.ofParts_givesReason`.
-/
import Runwatch.Proofs.Json.Entries
import Runwatch.Proofs.Push.Effect

namespace Runwatch.Push

open Json (Members Value)

namespace Reply

/-- A reply gives as its reason the text that the member of that name is, and
means what its status and this text say. -/
structure GivesReason (status : Nat) (member : Option Value) (r : Reply) : Prop where
  reason_eq_some : ∀ text, r.reason = some text ↔ member = some (.string text)
  reason_eq_none : r.reason = none ↔ ∀ text, member ≠ some (.string text)
  delivered : r.outcome = .delivered ↔ 200 ≤ status ∧ status < 300
  ended : (∃ told, r.outcome = .invalidToken told) ↔ ¬ (200 ≤ status ∧ status < 300) ∧
    (status = 410 ∨ member = some (.string "Unregistered")
      ∨ member = some (.string "BadDeviceToken"))
  rejected : ¬ (200 ≤ status ∧ status < 300) →
    ¬ (status = 410 ∨ member = some (.string "Unregistered")
      ∨ member = some (.string "BadDeviceToken")) → r.outcome = .rejected status r.reason

end Reply

/-- The body of a reply says a reason if it is an object that has a text of
that name. -/
theorem reasonOf_object {body : List UInt8} {ms : Members}
    (hbody : Json.parseBytes? body = some (.object ms))
    (honce : ∀ entries, Json.entries? body = some entries →
      (entries.map (·.1)).count "reason" ≤ 1) :
    reasonOf body = (Members.get? ms "reason").bind Value.text? := by
  obtain ⟨entries, hentries, rfl⟩ := Json.parseBytes?_eq_object_iff.mp hbody
  have hone := honce entries hentries
  have hne : body.isEmpty = false := by
    cases body with
    | nil => cases hentries
    | cons b body => rfl
  unfold reasonOf
  rw [hne, Json.Skim.textMember?_eq hentries hone, Json.get?_ofList hone]
  unfold Json.Skim.textAmong?
  cases entries.lookup "reason" with
  | none => rfl
  | some v => cases v <;> rfl

/-- **A reply gives the reason that its body has.** The body is any byte
string that is a JSON object with at most one member of that name, whatever
else stands in it. -/
theorem Reply.ofParts_givesReason {body : List UInt8} {ms : Members}
    (hbody : Json.parseBytes? body = some (.object ms))
    (honce : ∀ entries, Json.entries? body = some entries →
      (entries.map (·.1)).count "reason" ≤ 1) (status : Nat) (id : Option String) :
    (ofParts status id body).GivesReason status (Members.get? ms "reason") := by
  have hreason : ∀ text, (ofParts status id body).reason = some text ↔
      Members.get? ms "reason" = some (.string text) := by
    intro text
    show reasonOf body = some text ↔ _
    rw [reasonOf_object hbody honce]
    cases Members.get? ms "reason" with
    | none => simp
    | some v => cases v <;> simp [Value.text?]
  have hends : (ofParts status id body).EndsUse ↔ ¬ (200 ≤ status ∧ status < 300) ∧
      (status = 410 ∨ Members.get? ms "reason" = some (.string "Unregistered")
        ∨ Members.get? ms "reason" = some (.string "BadDeviceToken")) := by
    rw [← hreason, ← hreason]
    exact Iff.rfl
  refine ⟨hreason, ?absent, ?delivered, ?ended, ?rejected⟩
  case absent =>
    rw [Option.eq_none_iff_forall_ne_some]
    exact forall_congr' fun text => not_congr (hreason text)
  case delivered =>
    rw [outcome_eq]
    split
    · next hsuccess => exact ⟨fun _ => hsuccess, fun _ => rfl⟩
    · next hsuccess => split <;> exact ⟨nofun, fun h => absurd h hsuccess⟩
  case ended =>
    rw [← hends]
    simp only [outcome_eq_invalidToken_iff]
    exact ⟨fun ⟨_, h, _⟩ => h, fun h => ⟨_, h, rfl⟩⟩
  case rejected =>
    intro hsuccess hnot
    have hnotEnds : ¬ (ofParts status id body).EndsUse := fun h => hnot (hends.mp h).2
    rw [outcome_eq, if_neg hnotEnds]
    exact if_neg hsuccess

/-- The body of an answer, `{"a":{"reason":0},"re\u0061son":"Unregistered"}`:
a member has one of that name in itself, and the name is written with an
escape. -/
def nestedBody : List UInt8 :=
  [0x7B, 0x22, 0x61, 0x22, 0x3A, 0x7B, 0x22, 0x72, 0x65, 0x61, 0x73, 0x6F, 0x6E, 0x22, 0x3A, 0x30, 0x7D,
   0x2C, 0x22, 0x72, 0x65, 0x5C, 0x75, 0x30, 0x30, 0x36, 0x31, 0x73, 0x6F, 0x6E, 0x22, 0x3A,
   0x22, 0x55, 0x6E, 0x72, 0x65, 0x67, 0x69, 0x73, 0x74, 0x65, 0x72, 0x65, 0x64, 0x22, 0x7D]

/-- Its members. -/
def nestedEntries : List (String × Value) :=
  [("a", .object [("reason", .number (.natural 0))]), ("reason", .string "Unregistered")]

theorem entries?_nestedBody : Json.entries? nestedBody = some nestedEntries := rfl

/-- With this body the token is not used again, although the status alone
does not say so. -/
theorem nestedBody_givesReason :
    (nestedEntries.map (·.1)).count "reason" = 1 ∧
      Members.get? (Members.ofList nestedEntries) "reason" = some (.string "Unregistered") ∧
      (Reply.ofParts 400 none nestedBody).GivesReason 400 (some (.string "Unregistered")) := by
  have hbody : Json.parseBytes? nestedBody = some (.object (Members.ofList nestedEntries)) :=
    Json.parseBytes?_eq_object_iff.mpr ⟨_, entries?_nestedBody, rfl⟩
  have honce : ∀ entries, Json.entries? nestedBody = some entries →
      (entries.map (·.1)).count "reason" ≤ 1 := by
    intro entries h
    obtain rfl := Option.some.inj (entries?_nestedBody.symm.trans h)
    decide
  have hmember : Members.get? (Members.ofList nestedEntries) "reason"
      = some (.string "Unregistered") := rfl
  have hgives := Reply.ofParts_givesReason hbody honce 400 none
  rw [hmember] at hgives
  exact ⟨by decide, hmember, hgives⟩

end Runwatch.Push
