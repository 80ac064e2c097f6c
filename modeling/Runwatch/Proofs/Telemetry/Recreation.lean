/-
Runwatch.Proofs.Telemetry.Recreation — a log that goes and comes back.

A read that finds no log leaves the tail as it is. What the next read makes
of a log that was deleted and created again is then decided by the length
alone: a log that is shorter than what was read is read from its start, and
any other is taken for the old one grown. What was read stands in for as
many bytes of the new log, which nobody looks at, and an object half read
goes on in its middle.

  §1 Runs       — what a tail has read behind any run of reads
                  (`exists_hasRead`), whatever they find.
  §2 Recreation — what the first read of a new log gives (`read_recreated`):
                  when that is what a fresh tail gives for it, and what it
                  is otherwise.
-/
import Runwatch.Proofs.Telemetry.Reading

namespace Runwatch.Telemetry

open Json (Value)

namespace Tail

/-! ## §1 Runs -/

/-- A fresh tail behind reads that find these in turn. -/
def behind (sights : List Sight) : Tail := sights.foldl (fun t sight => (t.read sight).1) start

theorem behind_snoc (sights : List Sight) (sight : Sight) :
    behind (sights ++ [sight]) = ((behind sights).read sight).1 := by
  simp [behind]

/-- Each read leaves a tail that has read something: what it had read, that
with bytes behind it, or nothing. -/
theorem HasRead.read {t : Tail} {content : List UInt8} {objects : List Value}
    (h : t.HasRead content objects) (sight : Sight) :
    ∃ content' objects', (t.read sight).1.HasRead content' objects' := by
  have hmeasured (length : Nat) :
      ∃ content' objects', (t.measured length).HasRead content' objects' := by
    unfold measured
    split
    · exact ⟨_, _, .start⟩
    · exact ⟨_, _, h⟩
  cases sight with
  | missing => exact ⟨_, _, h⟩
  | closed fault => exact ⟨_, _, h⟩
  | unreadable length fault =>
    have hread : (t.read (.unreadable length fault)).1 = t.measured length := by
      simp only [Tail.read]
      split <;> rfl
    rw [hread]
    exact hmeasured length
  | log bytes =>
    obtain ⟨content', objects', h'⟩ := hmeasured bytes.length
    exact ⟨_, _, h'.take _⟩

/-- Behind every run the tail has read something, of which it holds the
length and the object that is not complete. -/
theorem exists_hasRead (sights : List Sight) :
    ∃ content objects, (behind sights).HasRead content objects := by
  induction sights using List.reverseRecOn with
  | nil => exact ⟨_, _, .start⟩
  | append_singleton sights sight ih =>
    obtain ⟨content, objects, h⟩ := ih
    rw [behind_snoc]
    exact h.read sight

/-- Reads that do not come so far as to measure a log leave the tail alone. -/
theorem behind_append_unmeasured (sights : List Sight) {gone : List Sight}
    (hgone : ∀ sight ∈ gone, sight.length? = none) : behind (sights ++ gone) = behind sights := by
  induction gone using List.reverseRecOn with
  | nil => rw [List.append_nil]
  | append_singleton gone sight ih =>
    have hsight := hgone sight (List.mem_append_right _ (List.mem_singleton_self sight))
    rw [← List.append_assoc, behind_snoc,
      ih fun other hother => hgone other (List.mem_append_left _ hother)]
    cases sight with
    | missing => rfl
    | closed fault => rfl
    | unreadable length fault => cases hsight
    | log bytes => cases hsight

/-! ## §2 Recreation -/

/-- What a fresh tail gives for a log. -/
def freshObjects (content : List UInt8) : List Value := (Stream.start.feed content).2

theorem freshObjects_eq (content : List UInt8) :
    freshObjects content = (Call.mk start (.log content)).objects := by
  show _ = (start.readTo content.length content).2
  unfold readTo take freshObjects
  simp [start]

/-- **The first read of a log that was deleted and created again** reads up
to its end. It gives what a fresh tail gives if the log is shorter than what
was read before; else it does so only where the bytes behind the old offset,
read on from the old object, happen to give the same. It gives what the old
log would, had it been followed by those bytes: of a new log that begins
like the old one, nothing that was given before. -/
theorem read_recreated (sights later : List Sight)
    (hlater : ∀ sight ∈ later, sight.length? = none) (content : List UInt8) :
    let old := behind sights
    let call : Call := ⟨behind (sights ++ .missing :: later), .log content⟩
    call.answer = .ok call.objects ∧ call.after.offset = content.length ∧
    (call.objects = (Call.mk start (.log content)).objects ↔
      content.length < old.offset ∨
        (old.stream.feed (content.drop old.offset)).2 = freshObjects content) ∧
    ∃ bytes given, old.HasRead bytes given ∧
      (bytes.length ≤ content.length →
        Stream.start.feed (bytes ++ content.drop bytes.length) =
          (call.after.stream, given ++ call.objects)) ∧
      (bytes <+: content →
        (call.objects = (Call.mk start (.log content)).objects ↔ given = [])) := by
  intro old call
  have hbefore : call.before = old :=
    behind_append_unmeasured sights (List.forall_mem_cons.mpr ⟨rfl, hlater⟩)
  obtain ⟨bytes, given, hread⟩ := exists_hasRead sights
  obtain ⟨hafter, hobjects, hanswer⟩ := Call.after_of_content? (c := call) rfl
  have hmeasured : call.measured = old.measured content.length := by
    rw [← Call.measured_eq (c := call) rfl, hbefore]
  rw [hmeasured] at hafter hobjects
  -- A log that is no shorter is read on behind the old offset.
  have hbehind (hle : old.offset ≤ content.length) :
      call.after = (old.take (content.drop old.offset)).1 ∧
        call.objects = (old.stream.feed (content.drop old.offset)).2 := by
    have hsame : old.measured content.length = old := by
      unfold measured
      rw [if_neg (Nat.not_lt.mpr hle)]
    rw [hsame, readTo, List.take_length] at hafter hobjects
    exact ⟨hafter, hobjects⟩
  have hshorter (hlt : content.length < old.offset) :
      call.after = (start.readTo content.length content).1 ∧
        call.objects = (Call.mk start (.log content)).objects := by
    have hstart : old.measured content.length = start := by
      unfold measured
      rw [if_pos hlt]
    rw [hstart] at hafter hobjects
    exact ⟨hafter, hobjects⟩
  have hgrown (hle : bytes.length ≤ content.length) :
      Stream.start.feed (bytes ++ content.drop bytes.length) =
        (call.after.stream, given ++ call.objects) := by
    obtain ⟨hafter', hobjects'⟩ := hbehind (hread.offset ▸ hle)
    rw [Stream.feed_append, hread.stream, hafter', hobjects', ← hread.offset]
    rfl
  refine ⟨hanswer, ?offset, ?fresh, bytes, given, hread, hgrown, ?alike⟩
  case offset =>
    rcases Nat.lt_or_ge content.length old.offset with hlt | hle
    · rw [(hshorter hlt).1]
      simp [readTo, take, start]
    · rw [(hbehind hle).1]
      simp only [take, List.length_drop]
      omega
  case fresh =>
    rw [← freshObjects_eq]
    rcases Nat.lt_or_ge content.length old.offset with hlt | hle
    · rw [(hshorter hlt).2, freshObjects_eq]
      simp [hlt]
    · rw [(hbehind hle).2]
      simp [Nat.not_lt.mpr hle]
  case alike =>
    intro hprefix
    obtain ⟨added, rfl⟩ := hprefix
    have hall := hgrown (by simp)
    rw [List.drop_left] at hall
    rw [← freshObjects_eq, freshObjects, hall]
    simp

/-- An object and the beginning of another, and a new log that completes it:
the first object of the new log is not given. -/
theorem read_recreated_longer :
    let call : Call :=
      ⟨behind ([.log [0x7B, 0x7D, 0x7B]] ++ .missing :: [.closed (.system 13)]),
        .log [0x7B, 0x7D, 0x7B, 0x7D]⟩
    call.answer = .ok [.object []] ∧ call.after.offset = 4 ∧
      (Call.mk start (.log [0x7B, 0x7D, 0x7B, 0x7D])).objects = [.object [], .object []] ∧
      call.objects ≠ (Call.mk start (.log [0x7B, 0x7D, 0x7B, 0x7D])).objects := by
  obtain ⟨hanswer, hoffset, hfresh, -⟩ := read_recreated [.log [0x7B, 0x7D, 0x7B]]
    [.closed (.system 13)] (by simp [Sight.length?]) [0x7B, 0x7D, 0x7B, 0x7D]
  refine ⟨hanswer, hoffset, rfl, fun heq => ?_⟩
  rcases hfresh.mp heq with hlt | hsame
  · exact absurd hlt (by decide)
  · cases hsame

/-- A log that comes back as it was gives nothing, so that not every log is
read from its first byte. -/
theorem not_read_from_start :
    ¬ ∀ (sights : List Sight) (content : List UInt8),
      let call : Call := ⟨behind (sights ++ [.missing]), .log content⟩
      call.answer = .ok (Call.mk start (.log content)).objects ∧
        call.after.offset = content.length := by
  intro h
  have hanswer := (h [.log [0x7B, 0x7D]] [0x7B, 0x7D]).1
  cases hanswer

end Tail

end Runwatch.Telemetry
