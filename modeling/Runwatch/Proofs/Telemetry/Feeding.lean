/-
Runwatch.Proofs.Telemetry.Feeding — a scanner fed in pieces.

`Scan.feedOnto` carries the spans that have ended; the equations here speak
of `Scan.feed` alone, one symbol at a time (`feed_cons`) or one piece at a
time (`feed_append`). From the second follows that the cuts between pieces
leave no trace: feeding a stream its pieces in order is feeding it their
concatenation (`Stream.feedAll_eq_feed`).

  §1 Scan    — `feed_nil`, `feed_cons`, `feed_append`, and what a scanner
               outside any span makes of a symbol that opens none.
  §2 Stream  — the same for the objects of a byte stream.
-/
import Runwatch.Telemetry.Stream

namespace Runwatch.Telemetry

open Json (Value)

/-! ## §1 Scan -/

namespace Scan

variable {α : Type} {mark : α → Mark}

/-- The spans that ended before stand in front of those that end now. -/
theorem feedOnto_eq (done : List (List α)) (s : Scan α) (symbols : List α) :
    s.feedOnto mark done symbols
      = ((s.feed mark symbols).1, done.reverse ++ (s.feed mark symbols).2) := by
  induction symbols generalizing done s with
  | nil => simp [feed, feedOnto]
  | cons a rest ih =>
    simp only [feed, feedOnto]
    split
    · next s' span _ => rw [ih (span :: done), ih [span]]; simp
    · next s' _ => rw [ih done, ih []]; simp

@[simp] theorem feed_nil (s : Scan α) : s.feed mark [] = (s, []) := rfl

theorem feed_cons (s : Scan α) (a : α) (rest : List α) :
    s.feed mark (a :: rest)
      = (((s.step mark a).1.feed mark rest).1,
         (s.step mark a).2.toList ++ ((s.step mark a).1.feed mark rest).2) := by
  rw [feed, feedOnto]
  split
  · next s' span h => rw [feedOnto_eq, h]; rfl
  · next s' h => rw [feedOnto_eq, h]; rfl

theorem feed_append (s : Scan α) (u v : List α) :
    s.feed mark (u ++ v)
      = (((s.feed mark u).1.feed mark v).1,
         (s.feed mark u).2 ++ ((s.feed mark u).1.feed mark v).2) := by
  induction u generalizing s with
  | nil => simp
  | cons a rest ih => simp [feed_cons, ih]

/-- One more symbol behind the others. -/
theorem feed_snoc (s : Scan α) (u : List α) (a : α) :
    s.feed mark (u ++ [a])
      = (((s.feed mark u).1.step mark a).1,
         (s.feed mark u).2 ++ ((s.feed mark u).1.step mark a).2.toList) := by
  simp [feed_append, feed_cons]

/-- A symbol that does not open a span is passed over outside of one. -/
theorem step_idle {a : α} (h : mark a ≠ .opening) : idle.step mark a = (idle, none) := by
  cases hm : mark a with
  | opening => exact absurd hm h
  | closing | quote | backslash | plain => simp [step, idle, hm]

end Scan

/-! ## §2 Stream -/

namespace Stream

theorem feed_eq (s : Stream) (piece : List UInt8) :
    s.feed piece
      = ((Scan.feed byteMark s piece).1,
         (Scan.feed byteMark s piece).2.filterMap Json.parseBytes?) := rfl

@[simp] theorem feed_nil (s : Stream) : s.feed [] = (s, []) := rfl

theorem feed_append (s : Stream) (u v : List UInt8) :
    s.feed (u ++ v) = (((s.feed u).1.feed v).1, (s.feed u).2 ++ ((s.feed u).1.feed v).2) := by
  simp [feed_eq, Scan.feed_append]

/-- Where a stream is cut into pieces makes no difference. -/
theorem feedAll_eq_feed (s : Stream) (pieces : List (List UInt8)) :
    s.feedAll pieces = s.feed pieces.flatten := by
  induction pieces generalizing s with
  | nil => rfl
  | cons piece rest ih => simp [feedAll, ih, feed_append]

end Stream

end Runwatch.Telemetry
