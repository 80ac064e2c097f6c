/-
Runwatch.Proofs.Files.Names — the name that a path ends in.

A path is cut at its slashes, and the pieces that are empty or `.` count for
nothing. So what stands behind the name that a path ends in is a row of
slashes with dots between them (`IsTrail`), and the last piece that counts is
the name (`fileName?_eq_some_iff`). A name below a directory ends as the name
does (`lastStep?_join`).

  §1 Steps — the last piece that counts (`lastStep?`).
  §2 Names — the name that a path ends in.
-/
import Runwatch.Files.Path

namespace Runwatch.Files

/-! ## §1 Steps -/

/-- A text with a slash is cut at the last one. -/
theorem exists_last_slash {cs : List Char} (h : '/' ∈ cs) :
    ∃ xs ys, cs = xs ++ '/' :: ys ∧ '/' ∉ ys := by
  obtain ⟨before, after, hsplit, hnot⟩ := List.eq_append_cons_of_mem (List.mem_reverse.mpr h)
  refine ⟨after.reverse, before.reverse, ?_, by simpa using hnot⟩
  simpa using congrArg List.reverse hsplit

/-- The last piece of a text that counts. -/
def lastStep? (cs : List Char) : Option Component :=
  ((cs.splitOn '/').filterMap Component.ofPiece?).getLast?

theorem lastStep?_of_not_mem {cs : List Char} (h : '/' ∉ cs) :
    lastStep? cs = Component.ofPiece? cs := by
  rw [lastStep?, List.splitOn_eq_singleton h]
  cases hpiece : Component.ofPiece? cs <;> simp [hpiece]

theorem lastStep?_append (xs ys : List Char) :
    lastStep? (xs ++ '/' :: ys) = (lastStep? ys).or (lastStep? xs) := by
  rw [lastStep?, List.splitOn_append_cons_self, List.filterMap_append, List.getLast?_append]
  rfl

/-- Slashes and dots between them, which mean nothing at the end of a path. -/
inductive IsTrail : List Char → Prop where
  | nil : IsTrail []
  | slash {trail : List Char} (h : IsTrail trail) : IsTrail ('/' :: trail)
  | dot {trail : List Char} (h : IsTrail trail) : IsTrail ('/' :: '.' :: trail)

theorem IsTrail.append {xs ys : List Char} (hxs : IsTrail xs) (hys : IsTrail ys) :
    IsTrail (xs ++ ys) := by
  induction hxs with
  | nil => exact hys
  | slash _ ih => exact ih.slash
  | dot _ ih => exact ih.dot

/-- A trail that is there begins with a slash. -/
theorem IsTrail.eq_nil_of_not_mem {trail : List Char} (h : IsTrail trail) (hnot : '/' ∉ trail) :
    trail = [] := by
  cases h with
  | nil => rfl
  | slash | dot => simp at hnot

/-- A trail hides no step before it. -/
theorem IsTrail.lastStep?_append {trail : List Char} (h : IsTrail trail) (cs : List Char) :
    lastStep? (cs ++ trail) = lastStep? cs := by
  induction h generalizing cs with
  | nil => rw [List.append_nil]
  | slash _ ih =>
    have hnone : lastStep? _ = none := ih []
    rw [Files.lastStep?_append]
    simpa using congrArg (·.or (lastStep? cs)) hnone
  | dot _ ih =>
    have hnone : lastStep? _ = none := ih ['.']
    rw [Files.lastStep?_append]
    simpa using congrArg (·.or (lastStep? cs)) hnone

/-- A piece that stands for a name is that name. -/
theorem ofPiece?_eq_name_iff {piece : List Char} {s : String} :
    Component.ofPiece? piece = some (.name s) ↔
      piece = s.toList ∧ piece ≠ [] ∧ piece ≠ ['.'] ∧ piece ≠ ['.', '.'] := by
  unfold Component.ofPiece?
  split
  · next h =>
    rcases by simpa using h with rfl | rfl <;> simp
  · next h =>
    have hcounts : piece ≠ [] ∧ piece ≠ ['.'] := by simpa using h
    split
    · next h' => simp [beq_iff_eq.mp h']
    · next h' =>
      have hne : piece ≠ ['.', '.'] := by simpa using h'
      constructor
      · intro heq
        obtain rfl : String.ofList piece = s := by simpa using heq
        exact ⟨by simp, hcounts.1, hcounts.2, hne⟩
      · rintro ⟨rfl, -⟩
        simp

theorem ofPiece?_eq_none_iff {piece : List Char} :
    Component.ofPiece? piece = none ↔ piece = [] ∨ piece = ['.'] := by
  unfold Component.ofPiece?
  split
  · next h => simpa using h
  · next h =>
    have hcounts : ¬ (piece = [] ∨ piece = ['.']) := by simpa using h
    split <;> simpa using hcounts

/-- What a text ends in: something that is empty or ends in a slash, then the
name, then a trail. -/
structure EndsIn (cs : List Char) (s : String) (above trail : List Char) : Prop where
  eq : cs = above ++ s.toList ++ trail
  above : above = [] ∨ ∃ more, above = more ++ ['/']
  trail : IsTrail trail

/-- A text that ends in a name has that as its last step. -/
theorem EndsIn.lastStep? {cs above trail : List Char} {s : String} (h : EndsIn cs s above trail)
    (hs : '/' ∉ s.toList) (hname : Component.ofPiece? s.toList = some (.name s)) :
    Files.lastStep? cs = some (.name s) := by
  rw [h.eq, h.trail.lastStep?_append]
  rcases h.above with rfl | ⟨more, rfl⟩
  · rw [List.nil_append, lastStep?_of_not_mem hs, hname]
  · rw [List.append_assoc, List.singleton_append, lastStep?_append, lastStep?_of_not_mem hs, hname,
      Option.some_or]

/-- A text whose last step is a name ends in it. The pieces behind it, from
the last one on, are those of the trail. -/
theorem exists_endsIn (cs : List Char) {s : String} (h : lastStep? cs = some (.name s)) :
    '/' ∉ s.toList ∧ ∃ above trail, EndsIn cs s above trail := by
  by_cases hslash : '/' ∈ cs
  · obtain ⟨xs, ys, rfl, hys⟩ := exists_last_slash hslash
    rw [lastStep?_append, lastStep?_of_not_mem hys] at h
    cases hpiece : Component.ofPiece? ys with
    | some step =>
      obtain rfl : step = .name s := by simpa [hpiece] using h
      obtain ⟨rfl, -⟩ := ofPiece?_eq_name_iff.mp hpiece
      exact ⟨hys, xs ++ ['/'], [], by simp, .inr ⟨xs, rfl⟩, .nil⟩
    | none =>
      rw [hpiece, Option.none_or] at h
      obtain ⟨hs, above, trail, heq, habove, htrail⟩ := exists_endsIn xs h
      have hlast : IsTrail ('/' :: ys) := by
        rcases ofPiece?_eq_none_iff.mp hpiece with rfl | rfl
        · exact .slash .nil
        · exact .dot .nil
      exact ⟨hs, above, trail ++ '/' :: ys, by simp [heq], habove, htrail.append hlast⟩
  · rw [lastStep?_of_not_mem hslash] at h
    obtain ⟨rfl, -⟩ := ofPiece?_eq_name_iff.mp h
    exact ⟨hslash, [], [], by simp, .inl rfl, .nil⟩
termination_by cs.length

/-! ## §2 Names -/

theorem getLast?_components {path : String} {step : Component}
    (h : lastStep? path.toList = some step) : (components path).getLast? = some step := by
  have hcons : ∀ first : Component,
      (first :: (path.toList.splitOn '/').filterMap Component.ofPiece?).getLast? = some step := by
    intro first
    rw [List.getLast?_cons, show List.getLast? _ = _ from h]
    rfl
  unfold components
  simp only
  split
  · exact hcons .root
  · split
    · exact hcons .here
    · exact h

/-- The name that a path with a last step ends in. -/
theorem fileName?_eq_some_iff {path : String} {step : Component}
    (h : lastStep? path.toList = some step) {s : String} :
    fileName? path = some s ↔ step = .name s := by
  rw [fileName?, getLast?_components h]
  cases step <;> simp

/-- A name below a directory has the last step of the name. -/
theorem lastStep?_join {dir name : String} {step : Component} (hname : isAbsolute name = false)
    (h : lastStep? name.toList = some step) : lastStep? (join dir name).toList = some step := by
  unfold join
  rw [hname, Bool.false_or]
  split
  · exact h
  · split
    · next hlast =>
      obtain ⟨above, habove⟩ : ∃ above, dir.toList = above ++ ['/'] :=
        List.getLast?_eq_some_iff.mp (beq_iff_eq.mp hlast)
      rw [String.toList_append, habove, List.append_assoc, List.singleton_append,
        lastStep?_append, h, Option.some_or]
    · rw [String.toList_append, String.toList_append, List.append_assoc]
      show lastStep? (dir.toList ++ '/' :: name.toList) = _
      rw [lastStep?_append, h, Option.some_or]

end Runwatch.Files
