/-
Runwatch.Proofs.Telemetry.Reading — a growing log is read once.

A tail has read some content when its offset is the length of that content
and its stream stands where a fresh stream stands behind it; the objects it
has given are then those that a fresh stream gives (`Tail.HasRead`). Taking
the bytes that follow keeps this (`HasRead.readTo`), so a run of reads keeps
it as long as the log only grows, and starts over where the log was seen to
be shorter than before.

  §1 Content — `HasRead`, and what one read makes of it.
  §2 Runs    — calls of a run (`Call`), those since the latest truncation,
               the runs of a log that grows between truncations (`IsRun`).

The main statement is `IsRun.call_reads_once`: after each call of such a run
the offset and the objects given are those of the content last seen, and a
call that fails leaves the tail as it was or, behind a truncation, at its
start.
-/
import Mathlib.Data.List.Induction
import Runwatch.Proofs.Telemetry.Feeding
import Runwatch.Telemetry.Tail

namespace Runwatch.Telemetry

open Files (Fault)
open Json (Value)

/-! ## §1 Content -/

namespace Tail

/-- A tail that has read `content` and given `objects`. -/
structure HasRead (t : Tail) (content : List UInt8) (objects : List Value) : Prop where
  offset : t.offset = content.length
  stream : Stream.start.feed content = (t.stream, objects)

theorem HasRead.start : HasRead Tail.start [] [] := ⟨rfl, rfl⟩

/-- The bytes that follow are read behind the others. -/
theorem HasRead.take {t : Tail} {content : List UInt8} {objects : List Value}
    (h : t.HasRead content objects) (added : List UInt8) :
    (t.take added).1.HasRead (content ++ added) (objects ++ (t.take added).2) where
  offset := by simp [Tail.take, h.offset]
  stream := by rw [Stream.feed_append, h.stream]; rfl

/-- A read up to a length that lies in a log which extends what was read. -/
theorem HasRead.readTo {t : Tail} {content bytes : List UInt8} {objects : List Value} {length : Nat}
    (h : t.HasRead content objects) (hextends : content <+: bytes.take length) :
    (t.readTo length bytes).1.HasRead (bytes.take length)
      (objects ++ (t.readTo length bytes).2) := by
  obtain ⟨added, hadded⟩ := hextends
  have hdrop : (bytes.take length).drop t.offset = added := by
    rw [← hadded, h.offset, List.drop_left]
  rw [← hadded, Tail.readTo, hdrop]
  exact h.take added

end Tail

/-! ## §2 Runs -/

/-- The length that a read observes, if it comes so far. -/
def Sight.length? : Sight → Option Nat
  | .missing => none
  | .closed _ => none
  | .unreadable length _ => some length
  | .log bytes => some bytes.length

/-- One read of a run: the tail before it and what it finds. -/
structure Call where
  before : Tail
  sight : Sight

namespace Call

/-- The tail that the read leaves. -/
def after (c : Call) : Tail := (c.before.read c.sight).1

/-- What the read answers. -/
def answer (c : Call) : Except Fault (List Value) := (c.before.read c.sight).2

/-- The objects that the read gives; none if it fails. -/
def objects (c : Call) : List Value :=
  match c.answer with
  | .ok values => values
  | .error _ => []

/-- Whether the read observes a length below the offset. -/
def isTruncation (c : Call) : Bool :=
  match c.sight.length? with
  | some length => length < c.before.offset
  | none => false

/-- The content that the read sees. -/
def content? (c : Call) : Option (List UInt8) :=
  match c.sight with
  | .log bytes => some bytes
  | _ => none

/-- The tail once the length is known: at its start if the log is shorter
than what was read, else as it was. -/
def measured (c : Call) : Tail := if c.isTruncation then Tail.start else c.before

theorem measured_eq {c : Call} {length : Nat} (h : c.sight.length? = some length) :
    c.before.measured length = c.measured := by
  simp [Tail.measured, measured, isTruncation, h]

/-- A call that sees no content gives nothing and reads nothing. -/
theorem after_of_content?_eq_none {c : Call} (h : c.content? = none) :
    c.after = c.measured ∧ c.objects = [] := by
  obtain ⟨before, sight⟩ := c
  cases sight with
  | missing => exact ⟨rfl, rfl⟩
  | closed fault => exact ⟨rfl, rfl⟩
  | unreadable length fault =>
    have hm := measured_eq (c := ⟨before, .unreadable length fault⟩) rfl
    simp only [after, objects, answer, Tail.read, hm]
    by_cases hlen : (length == (Call.mk before (.unreadable length fault)).measured.offset) = true
    · simp [hlen]
    · simp [hlen]
  | log bytes => cases h

/-- A call that measures the log and need not read it. -/
theorem offset_of_answer_ok {c : Call} {length : Nat} {fault : Fault} {values : List Value}
    (hsight : c.sight = .unreadable length fault) (hanswer : c.answer = .ok values) :
    c.after.offset = length := by
  have hm := measured_eq (c := c) (by rw [hsight]; rfl)
  simp only [answer, after, hsight, Tail.read, hm] at hanswer ⊢
  split at hanswer
  · next hlen => simpa [hlen] using (beq_iff_eq.mp hlen).symm
  · cases hanswer

/-- A call that sees content succeeds, and reads up to its end. -/
theorem after_of_content? {c : Call} {content : List UInt8} (h : c.content? = some content) :
    c.after = (c.measured.readTo content.length content).1 ∧
      c.objects = (c.measured.readTo content.length content).2 ∧ c.answer = .ok c.objects := by
  obtain ⟨before, sight⟩ := c
  cases sight with
  | log bytes =>
    obtain rfl : bytes = content := Option.some.inj h
    have hm := measured_eq (c := ⟨before, .log bytes⟩) rfl
    simp only [after, objects, answer, Tail.read, hm, and_self]
  | missing => cases h
  | closed fault => cases h
  | unreadable length fault => cases h

end Call

/-- The calls from the latest truncation on, or all if there was none. -/
def sinceTruncation (calls : List Call) : List Call :=
  calls.foldl (fun kept c => if c.isTruncation then [c] else kept ++ [c]) []

/-- The content last seen since the latest truncation. -/
def lastContent? (calls : List Call) : Option (List UInt8) :=
  ((sinceTruncation calls).filterMap Call.content?).getLast?

/-- The objects given since the latest truncation. -/
def objectsSince (calls : List Call) : List Value := (sinceTruncation calls).flatMap Call.objects

/-- The tail behind the calls of a run. -/
def tailAfter (calls : List Call) : Tail := (calls.getLast?.map Call.after).getD Tail.start

/-- The runs of reads from a fresh tail in which the log grows between
truncations: what a call sees that is no truncation extends what was last
seen since the latest one. -/
inductive IsRun : List Call → Prop where
  | nil : IsRun []
  | snoc {calls : List Call} {call : Call} (h : IsRun calls)
      (hbefore : call.before = tailAfter calls)
      (hgrows : call.isTruncation = false →
        ∀ content ∈ call.content?, ∀ last ∈ lastContent? calls, last <+: content) :
      IsRun (calls ++ [call])

theorem sinceTruncation_snoc (calls : List Call) (c : Call) :
    sinceTruncation (calls ++ [c])
      = (if c.isTruncation then [] else sinceTruncation calls) ++ [c] := by
  simp only [sinceTruncation, List.foldl_append, List.foldl_cons, List.foldl_nil]
  split <;> rfl

theorem objectsSince_snoc (calls : List Call) (c : Call) :
    objectsSince (calls ++ [c])
      = (if c.isTruncation then [] else objectsSince calls) ++ c.objects := by
  rw [objectsSince, sinceTruncation_snoc]
  split <;> simp [objectsSince]

theorem lastContent?_snoc (calls : List Call) (c : Call) :
    lastContent? (calls ++ [c])
      = c.content?.or (if c.isTruncation then none else lastContent? calls) := by
  rw [lastContent?, sinceTruncation_snoc]
  cases hc : c.content? <;> split <;> simp [lastContent?, hc]

theorem tailAfter_snoc (calls : List Call) (c : Call) : tailAfter (calls ++ [c]) = c.after := by
  simp [tailAfter]

/-- A content that extends what was last seen since a truncation, if this
is none, extends what is kept. -/
theorem getD_prefix {truncation : Bool} {last? : Option (List UInt8)} {content : List UInt8}
    (h : truncation = false → ∀ last ∈ last?, last <+: content) :
    (if truncation then none else last?).getD [] <+: content := by
  cases truncation with
  | true => exact List.nil_prefix
  | false =>
    cases hlast : last? with
    | none => exact List.nil_prefix
    | some last => exact h rfl last hlast

namespace IsRun

/-- Behind every run the tail has read the content last seen since the
latest truncation, and given the objects given since then. -/
theorem hasRead {calls : List Call} (h : IsRun calls) :
    (tailAfter calls).HasRead ((lastContent? calls).getD []) (objectsSince calls) := by
  induction h with
  | nil => exact .start
  | @snoc calls call _ hbefore hgrows ih =>
    rw [← hbefore] at ih
    -- A truncation starts over as soon as the length is known.
    have hmeasured : call.measured.HasRead
        ((if call.isTruncation then none else lastContent? calls).getD [])
        (if call.isTruncation then [] else objectsSince calls) := by
      rw [Call.measured]
      split
      · exact .start
      · exact ih
    rw [tailAfter_snoc, lastContent?_snoc, objectsSince_snoc]
    cases hc : call.content? with
    | none =>
      obtain ⟨hafter, hobjects⟩ := Call.after_of_content?_eq_none hc
      simpa [hafter, hobjects] using hmeasured
    | some content =>
      obtain ⟨hafter, hobjects, -⟩ := Call.after_of_content? hc
      have hextends : (if call.isTruncation then none else lastContent? calls).getD []
          <+: content.take content.length := by
        rw [List.take_length]
        exact getD_prefix fun hkept => hgrows hkept content hc
      have hread := hmeasured.readTo hextends
      rw [List.take_length] at hread
      rw [hafter, hobjects]
      exact hread

/-- What a run begins with is a run. -/
theorem of_append {calls later : List Call} (h : IsRun (calls ++ later)) : IsRun calls := by
  induction later using List.reverseRecOn with
  | nil => simpa using h
  | append_singleton later call ih =>
    rw [← List.append_assoc] at h
    generalize hall : calls ++ later ++ [call] = all at h
    cases h with
    | nil => simp at hall
    | snoc hrun _ _ =>
      obtain ⟨heq, -⟩ := List.append_inj' hall rfl
      exact ih (heq ▸ hrun)

/-- **A growing log is read once.** After every call of a run that sees
content, the offset is the length of that content, and the objects that the
calls have given since the latest truncation are those that a fresh stream
gives for it. The same holds of a call that succeeds without a look at the
bytes, because it measures what was read, if the log has grown. A call that
fails gives nothing, and leaves the tail as it was or, if it was a
truncation, at its start. -/
theorem call_reads_once {earlier later : List Call} {call : Call}
    (h : IsRun (earlier ++ call :: later)) :
    (∀ content, call.content? = some content →
      call.answer = .ok call.objects ∧ call.after.offset = content.length ∧
        Stream.start.feed content = (call.after.stream, objectsSince (earlier ++ [call]))) ∧
    (∀ content fault, call.sight = .unreadable content.length fault →
      call.answer = .ok call.objects →
      (call.isTruncation = false → ∀ last ∈ lastContent? earlier, last <+: content) →
      call.after.offset = content.length ∧
        Stream.start.feed content = (call.after.stream, objectsSince (earlier ++ [call]))) ∧
    (∀ fault, call.answer = .error fault → call.objects = [] ∧
      call.after = if call.isTruncation then Tail.start else call.before) := by
  have hrun : IsRun (earlier ++ [call]) := of_append (by simpa using h)
  have hread := hrun.hasRead
  rw [tailAfter_snoc, lastContent?_snoc] at hread
  refine ⟨?content, ?quiet, ?failure⟩
  case content =>
    intro content hc
    rw [hc] at hread
    exact ⟨(Call.after_of_content? hc).2.2, hread.offset, hread.stream⟩
  case quiet =>
    intro content fault hsight hanswer hgrows
    have hoffset := Call.offset_of_answer_ok hsight hanswer
    have hc : call.content? = none := by rw [Call.content?, hsight]
    rw [hc, Option.none_or] at hread
    have hextends : (if call.isTruncation then none else lastContent? earlier).getD []
        <+: content := getD_prefix fun hkept => hgrows hkept
    obtain rfl := hextends.eq_of_length (hread.offset.symm.trans hoffset)
    exact ⟨hoffset, hread.stream⟩
  case failure =>
    intro fault hfault
    cases hc : call.content? with
    | none =>
      obtain ⟨hafter, hobjects⟩ := Call.after_of_content?_eq_none hc
      exact ⟨hobjects, hafter⟩
    | some content =>
      rw [(Call.after_of_content? hc).2.2] at hfault
      cases hfault

end IsRun

/-- The calls that find these in turn. -/
def callsOn (sights : List Sight) : List Call :=
  sights.foldl (fun calls sight => calls ++ [⟨tailAfter calls, sight⟩]) []

/-- No log, one that may not be opened, an object and the beginning of
another, and then a log that is shorter and cannot be read. -/
def cutSights : List Sight :=
  [.missing, .closed (.system 13), .log [0x7B, 0x7D, 0x7B], .unreadable 2 (.system 5)]

/-- The log as it was, once more. -/
def regrown : Call := ⟨tailAfter (callsOn cutSights), .log [0x7B, 0x7D, 0x7B]⟩

/-- What was cut is read again from its start, and its object given again. -/
theorem IsRun.regrown_reads_once :
    IsRun (callsOn cutSights ++ [regrown]) ∧ regrown.after.offset = 3 ∧
      objectsSince (callsOn cutSights ++ [regrown]) = [.object []] := by
  have hrun : IsRun (callsOn cutSights ++ [regrown]) := by
    refine .snoc (.snoc (.snoc (.snoc (.snoc .nil rfl ?_) rfl ?_) rfl ?_) rfl ?_) rfl ?_ <;> decide
  obtain ⟨-, hoffset, hobjects⟩ := (IsRun.call_reads_once hrun).1 [0x7B, 0x7D, 0x7B] rfl
  exact ⟨hrun, hoffset, (congrArg Prod.snd hobjects).symm⟩

end Runwatch.Telemetry
