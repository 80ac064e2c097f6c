/-
Runwatch.Proofs.Telemetry.Buffer — what a stream holds is all it remembers.

A scanner keeps the symbols of the span begun, its open braces, and where it
stands towards string literals. The symbols alone would do: a fresh scanner
that is fed them ends in the same state and gives nothing
(`Holds.replay`). So a stream can be written down as the bytes it holds, and
taken up again from them.

  §1 Scanners — `Scan.Holds`: a scanner holds nothing or a span begun, and
                stands where that puts it. Feeding keeps this
                (`Holds.feed`); what it says of braces, strings and escapes.
  §2 Streams  — a stream that is fed pieces and at times starts over
                (`Move`, `Stream.behind`).

The main statement is `Stream.buffer_says_all`.
-/
import Mathlib.Data.List.TFAE
import Mathlib.Tactic.TFAE
import Runwatch.Proofs.Telemetry.Framing

namespace Runwatch.Telemetry

/-! ## §1 Scanners -/

namespace Scan

variable {α : Type} {mark : α → Mark}

/-- A scanner holds `w` and nothing else: that is no text or a span begun,
and the scanner stands where it puts a fresh one. -/
structure Holds (mark : α → Mark) (s : Scan α) (w : List α) : Prop where
  begun : w = [] ∨ IsBegun mark w
  state : s = holding mark w

namespace Holds

variable {s : Scan α} {w : List α}

theorem idle : Holds mark Scan.idle [] := ⟨.inl rfl, rfl⟩

theorem buffer_eq (h : Holds mark s w) : s.buffer = w := by
  rw [h.state, buffer_holding]

/-- A fresh scanner that is fed what is held ends in the same state. -/
theorem replay (h : Holds mark s w) : Scan.idle.feed mark w = (s, []) := by
  have hframing : Framing.Valid mark ⟨[], [], w⟩ :=
    ⟨by simp, by simp, by simp [Framing.IsGap], h.begun⟩
  rw [h.state]
  exact feed_framing hframing

/-- Whatever is fed to a scanner, it holds what is begun behind it. -/
theorem feed (h : Holds mark s w) (symbols : List α) :
    ∃ w', Holds mark (s.feed mark symbols).1 w' := by
  obtain ⟨f, hf, -, hfeed⟩ := exists_framing mark (w ++ symbols)
  -- Behind what it holds a fresh scanner goes on as this one does.
  rw [feed_append, h.replay] at hfeed
  exact ⟨f.rest, hf.rest, congrArg Prod.fst hfeed⟩

/-- What is begun has an open brace. -/
theorem depth_pos (h : Holds mark s w) (hne : w ≠ []) : 0 < s.depth := by
  have hbegun : IsBegun mark w := h.begun.resolve_left hne
  rw [h.state]
  exact Nat.sub_pos_of_lt hbegun.closed_lt_opened

/-- Four ways to say that nothing is begun. -/
theorem idle_tfae (h : Holds mark s w) :
    List.TFAE [s.depth = 0, s.buffer = [], s.isIdle = true, s = Scan.idle] := by
  tfae_have 1 → 2 := by
    intro hdepth
    rw [h.buffer_eq]
    apply Classical.byContradiction
    intro hne
    exact absurd hdepth (Nat.ne_of_gt (h.depth_pos hne))
  tfae_have 2 → 4 := by
    intro hbuffer
    rw [h.buffer_eq] at hbuffer
    rw [h.state, hbuffer, holding_nil]
  tfae_have 4 → 3 := by
    rintro rfl
    rfl
  tfae_have 3 → 1 := by
    intro hidle
    simp only [isIdle, Bool.and_eq_true, beq_iff_eq] at hidle
    exact hidle.1
  tfae_finish

theorem inString_of_escaped (h : Holds mark s w) (hescaped : s.escaped = true) :
    s.inString = true := by
  rw [h.state] at hescaped ⊢
  simp only [holding, beq_iff_eq, bne_iff_ne] at hescaped ⊢
  rw [hescaped]
  decide

/-- String literals stand inside of spans only. -/
theorem depth_pos_of_inString (h : Holds mark s w) (hstring : s.inString = true) :
    0 < s.depth := by
  apply h.depth_pos
  rintro rfl
  rw [h.state] at hstring
  cases hstring

end Holds

end Scan

/-! ## §2 Streams -/

namespace Stream

/-- What is done to a stream: it is fed a piece, or it starts over. -/
inductive Move where
  | feed (piece : List UInt8)
  | restart

/-- The stream behind a move. -/
def after (s : Stream) : Move → Stream
  | .feed piece => (s.feed piece).1
  | .restart => start

/-- A fresh stream behind some moves. -/
def behind (moves : List Move) : Stream := moves.foldl after start

theorem behind_snoc (moves : List Move) (m : Move) :
    behind (moves ++ [m]) = (behind moves).after m := by
  simp [behind]

/-- One move more: a piece goes on from what is held, and a stream that
starts over holds nothing. -/
theorem exists_holds_after {s : Stream} {w : List UInt8} (h : Scan.Holds byteMark s w) (m : Move) :
    ∃ w', Scan.Holds byteMark (s.after m) w' := by
  cases m with
  | feed piece => exact h.feed piece
  | restart => exact ⟨[], .idle⟩

/-- Behind all moves a stream holds nothing or a span begun. -/
theorem exists_holds_behind (moves : List Move) :
    ∃ w, Scan.Holds byteMark (behind moves) w := by
  induction moves using List.reverseRecOn with
  | nil => exact ⟨[], .idle⟩
  | append_singleton moves m ih =>
    obtain ⟨w, hw⟩ := ih
    rw [behind_snoc]
    exact exists_holds_after hw m

/-- **What a stream holds is all it remembers.** Behind any moves, a fresh
stream that is fed the bytes held gives nothing and is then the same stream,
with the same open braces and the same place towards strings. So it is a
fresh stream if it holds no byte, if no brace is open, or if it is idle, and
only then; and it is behind a backslash only in a string, and in a string
only behind an open brace. -/
theorem buffer_says_all (moves : List Move) :
    start.feed (behind moves).buffer = (behind moves, []) ∧
      List.TFAE [(behind moves).depth = 0, (behind moves).buffer = [],
        (behind moves).isIdle = true, behind moves = start] ∧
      ((behind moves).escaped = true → (behind moves).inString = true) ∧
      ((behind moves).inString = true → 0 < (behind moves).depth) := by
  obtain ⟨w, hw⟩ := exists_holds_behind moves
  refine ⟨?replay, hw.idle_tfae, hw.inString_of_escaped, hw.depth_pos_of_inString⟩
  case replay =>
    rw [hw.buffer_eq, feed_eq, start, hw.replay]
    rfl

/-- A stream that starts over, and is then cut behind a backslash in a
string. -/
example : behind [.feed [0x7B, 0x7B], .restart, .feed [0x7D, 0x7B], .feed [0x22, 0x5C]]
    = ⟨[0x5C, 0x22, 0x7B], 1, true, true⟩ := rfl

end Stream

end Runwatch.Telemetry
