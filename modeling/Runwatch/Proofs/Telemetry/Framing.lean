/-
Runwatch.Proofs.Telemetry.Framing — the grammar of a stream of spans.

A stream is a run of spans with gaps between them and, at its end, perhaps
a span that is only begun. What a span is needs no scanner to say: it
begins with an opening brace, and its end is the first place where the
braces outside string literals balance (`IsSpan`). A `Framing` is a stream
cut that way.

  §1 Braces    — string literals (`Quoting`), the marks outside of them
                 (`bareMarks`), and what one more symbol adds to the count.
  §2 Spans     — `IsSpan` and `IsBegun`; neither may extend the other.
  §3 Framings  — every stream has at most one (`Framing.eq_of_symbols_eq`).
  §4 Scanner   — the scanner's state behind a begun span is computed from
                 that span alone (`Scan.holding`); each step keeps it so
                 (`step_holding`), hence every stream has a framing and the
                 scanner finds it (`exists_framing`, `feed_framing`).

The main statement is `feed_framing`: the scanner gives the spans of a
stream and holds what is begun.
-/
import Mathlib.Data.List.Induction
import Runwatch.Proofs.Telemetry.Feeding

namespace Runwatch.Telemetry

variable {α : Type} {mark : α → Mark}

/-! ## §1 Braces -/

/-- Where a place stands towards string literals. -/
inductive Quoting where
  | outside
  | inside
  /-- In a literal, right behind a backslash that is not itself escaped. -/
  | escaped
  deriving DecidableEq, Repr

/-- The place behind one more mark. -/
def Quoting.next : Quoting → Mark → Quoting
  | .outside, .quote => .inside
  | .outside, _ => .outside
  | .inside, .quote => .outside
  | .inside, .backslash => .escaped
  | .inside, _ => .inside
  | .escaped, _ => .inside

/-- Where the end of a text stands whose start stands at `q`. -/
def quotingAfter (mark : α → Mark) (q : Quoting) (w : List α) : Quoting :=
  w.foldl (fun q a => q.next (mark a)) q

/-- The marks of a text that stand outside its string literals. -/
def bareMarks (mark : α → Mark) : Quoting → List α → List Mark
  | _, [] => []
  | .outside, a :: rest => mark a :: bareMarks mark (Quoting.outside.next (mark a)) rest
  | q, a :: rest => bareMarks mark (q.next (mark a)) rest

/-- How many braces a text opens outside its string literals. -/
def opened (mark : α → Mark) (w : List α) : Nat := (bareMarks mark .outside w).count .opening

/-- How many braces a text closes outside its string literals. -/
def closed (mark : α → Mark) (w : List α) : Nat := (bareMarks mark .outside w).count .closing

theorem quotingAfter_snoc (q : Quoting) (w : List α) (a : α) :
    quotingAfter mark q (w ++ [a]) = (quotingAfter mark q w).next (mark a) := by
  simp [quotingAfter]

theorem bareMarks_snoc (q : Quoting) (w : List α) (a : α) :
    bareMarks mark q (w ++ [a])
      = bareMarks mark q w ++ (if quotingAfter mark q w = .outside then [mark a] else []) := by
  induction w generalizing q with
  | nil => cases q <;> simp [bareMarks, quotingAfter]
  | cons b rest ih =>
    have hq : quotingAfter mark q (b :: rest) = quotingAfter mark (q.next (mark b)) rest := rfl
    rw [hq]
    cases q <;> simp [bareMarks, ih]

theorem opened_snoc (w : List α) (a : α) :
    opened mark (w ++ [a])
      = opened mark w
        + (if quotingAfter mark .outside w = .outside ∧ mark a = .opening then 1 else 0) := by
  rw [opened, bareMarks_snoc, List.count_append, ← opened]
  by_cases hq : quotingAfter mark .outside w = .outside <;> by_cases ha : mark a = .opening <;>
    simp [hq, ha]

theorem closed_snoc (w : List α) (a : α) :
    closed mark (w ++ [a])
      = closed mark w
        + (if quotingAfter mark .outside w = .outside ∧ mark a = .closing then 1 else 0) := by
  rw [closed, bareMarks_snoc, List.count_append, ← closed]
  by_cases hq : quotingAfter mark .outside w = .outside <;> by_cases ha : mark a = .closing <;>
    simp [hq, ha]

/-! ## §2 Spans -/

/-- A span that is only begun: an opening brace stands first, and the
braces balance nowhere behind it. -/
structure IsBegun (mark : α → Mark) (w : List α) : Prop where
  starts : w.head?.map mark = some .opening
  unbalanced : ∀ p, p <+: w → p ≠ [] → opened mark p ≠ closed mark p

/-- A span: an opening brace stands first, and the braces balance at its
end and nowhere before. -/
structure IsSpan (mark : α → Mark) (w : List α) : Prop where
  starts : w.head?.map mark = some .opening
  balanced : opened mark w = closed mark w
  first : ∀ p, p <+: w → p ≠ [] → p ≠ w → opened mark p ≠ closed mark p

theorem ne_nil_of_starts {w : List α} (h : w.head?.map mark = some .opening) : w ≠ [] := by
  rintro rfl
  simp at h

theorem starts_append {w : List α} (h : w.head?.map mark = some .opening) (rest : List α) :
    (w ++ rest).head?.map mark = some .opening := by
  cases w with
  | nil => simp at h
  | cons a w => simpa using h

/-- No begun span has a span in front. -/
theorem IsBegun.not_prefix {w u : List α} (hw : IsBegun mark w) (hu : IsSpan mark u) :
    ¬ u <+: w :=
  fun h => hw.unbalanced u h (ne_nil_of_starts hu.starts) hu.balanced

/-- No span has another in front. -/
theorem IsSpan.eq_of_prefix {w u : List α} (hw : IsSpan mark w) (hu : IsSpan mark u)
    (h : u <+: w) : u = w := by
  apply Classical.byContradiction
  intro hne
  exact hw.first u h (ne_nil_of_starts hu.starts) hne hu.balanced

theorem IsBegun.singleton {a : α} (h : mark a = .opening) : IsBegun mark [a] where
  starts := by simp [h]
  unbalanced := by
    intro p hp hne
    have hp : p = [a] := by
      cases List.prefix_cons_iff.mp hp with
      | inl h => exact absurd h hne
      | inr h =>
        obtain ⟨t, rfl, ht⟩ := h
        rw [List.prefix_nil.mp ht]
    simp [hp, opened, closed, bareMarks, h]

/-- Up to every place of a begun span more braces open than close. The
count moves by one at a time, so it cannot pass the balance. -/
theorem IsBegun.closed_lt_opened {w : List α} (h : IsBegun mark w) :
    closed mark w < opened mark w := by
  have upTo : ∀ p, p <+: w → p ≠ [] → closed mark p < opened mark p := by
    intro p
    induction p using List.reverseRecOn with
    | nil => intro _ hne; exact absurd rfl hne
    | append_singleton p a ih =>
      intro hp hne
      have hbal := h.unbalanced _ hp hne
      cases p with
      | nil =>
        have ha : mark a = .opening := by
          obtain ⟨rest, rfl⟩ := hp
          simpa using h.starts
        simp [opened, closed, bareMarks, ha]
      | cons b p =>
        -- At least one brace was open before, and one symbol closes at most one.
        have hlt := ih ((List.prefix_append _ _).trans hp) (by simp)
        have ho : opened mark (b :: p) ≤ opened mark (b :: p ++ [a]) := by
          rw [opened_snoc]; omega
        have hc : closed mark (b :: p ++ [a]) ≤ closed mark (b :: p) + 1 := by
          rw [closed_snoc]; split <;> omega
        omega
  exact upTo w (List.prefix_refl w) (ne_nil_of_starts h.starts)

/-- A begun span goes on as long as its braces do not balance. -/
theorem IsBegun.snoc {w : List α} (h : IsBegun mark w) {a : α}
    (ha : opened mark (w ++ [a]) ≠ closed mark (w ++ [a])) : IsBegun mark (w ++ [a]) where
  starts := starts_append h.starts [a]
  unbalanced := by
    intro p hp hne
    cases List.prefix_concat_iff.mp hp with
    | inl heq => rw [heq]; exact ha
    | inr hp => exact h.unbalanced p hp hne

/-- A begun span ends where its braces balance. -/
theorem IsBegun.span {w : List α} (h : IsBegun mark w) {a : α}
    (ha : opened mark (w ++ [a]) = closed mark (w ++ [a])) : IsSpan mark (w ++ [a]) where
  starts := starts_append h.starts [a]
  balanced := ha
  first := by
    intro p hp hne hnw
    cases List.prefix_concat_iff.mp hp with
    | inl heq => exact absurd heq hnw
    | inr hp => exact h.unbalanced p hp hne

/-! ## §3 Framings -/

/-- A stream cut at its spans: each span with the gap in front of it, then
the last gap, then what is begun. -/
structure Framing (α : Type) where
  parts : List (List α × List α)
  gap : List α
  rest : List α

namespace Framing

/-- The spans, in order. -/
def spans (f : Framing α) : List (List α) := f.parts.map Prod.snd

/-- The stream that is cut. -/
def symbols (f : Framing α) : List α :=
  f.parts.flatMap (fun (gap, span) => gap ++ span) ++ (f.gap ++ f.rest)

/-- A gap opens no brace. -/
def IsGap (mark : α → Mark) (gap : List α) : Prop := ∀ a ∈ gap, mark a ≠ .opening

/-- The gaps are gaps and the spans are spans, and behind the last gap
stands nothing or a begun span. -/
structure Valid (mark : α → Mark) (f : Framing α) : Prop where
  gaps : ∀ part ∈ f.parts, IsGap mark part.1
  spans : ∀ part ∈ f.parts, IsSpan mark part.2
  gap : IsGap mark f.gap
  rest : f.rest = [] ∨ IsBegun mark f.rest

/-- Gaps end at the first opening brace, so two streams that are equal have
equal first gaps. -/
theorem gap_eq {g g' u u' : List α} (hg : IsGap mark g) (hg' : IsGap mark g')
    (hu : u = [] ∨ u.head?.map mark = some .opening)
    (hu' : u' = [] ∨ u'.head?.map mark = some .opening) (h : g ++ u = g' ++ u') :
    g = g' ∧ u = u' := by
  induction g generalizing g' with
  | nil =>
    cases g' with
    | nil => exact ⟨rfl, h⟩
    | cons b t =>
      have hb := hg' b (by simp)
      simp only [List.nil_append, List.cons_append] at h
      subst h
      simp [hb] at hu
  | cons a g ih =>
    have ha := hg a (by simp)
    cases g' with
    | nil =>
      simp only [List.nil_append, List.cons_append] at h
      subst h
      simp [ha] at hu'
    | cons b t =>
      simp only [List.cons_append, List.cons.injEq] at h
      obtain ⟨rfl, h⟩ := h
      obtain ⟨rfl, hrest⟩ := ih (fun c hc => hg c (by simp [hc]))
        (fun c hc => hg' c (by simp [hc])) h
      exact ⟨rfl, hrest⟩

/-- Behind a first span the streams go on alike. -/
theorem span_eq {s s' u u' : List α} (hs : IsSpan mark s) (hs' : IsSpan mark s')
    (h : s ++ u = s' ++ u') : s = s' ∧ u = u' := by
  have hsub := List.prefix_or_prefix_of_prefix (List.prefix_append s u)
    (h ▸ List.prefix_append s' u')
  have heq : s = s' := by
    cases hsub with
    | inl hp => exact hs'.eq_of_prefix hs hp
    | inr hp => exact (hs.eq_of_prefix hs' hp).symm
  subst heq
  exact ⟨rfl, List.append_cancel_left h⟩

theorem Valid.starts {f : Framing α} (h : f.Valid mark) :
    f.rest = [] ∨ f.rest.head?.map mark = some .opening :=
  h.rest.imp_right IsBegun.starts

theorem Valid.rest_ne {f : Framing α} (h : f.Valid mark) {s u : List α} (hs : IsSpan mark s) :
    f.rest ≠ s ++ u := by
  intro heq
  cases h.rest with
  | inl hnil =>
    have happend : s ++ u = [] := heq.symm.trans hnil
    exact ne_nil_of_starts hs.starts (List.append_eq_nil_iff.mp happend).1
  | inr hbegun => exact hbegun.not_prefix hs (heq ▸ List.prefix_append s u)

theorem Valid.tail {part : List α × List α} {parts : List (List α × List α)} {gap rest : List α}
    (h : Valid mark ⟨part :: parts, gap, rest⟩) : Valid mark ⟨parts, gap, rest⟩ where
  gaps := fun p hp => h.gaps p (List.mem_cons_of_mem _ hp)
  spans := fun p hp => h.spans p (List.mem_cons_of_mem _ hp)
  gap := h.gap
  rest := h.rest

/-- A stream has at most one framing. -/
theorem eq_of_symbols_eq {f g : Framing α} (hf : f.Valid mark) (hg : g.Valid mark)
    (h : f.symbols = g.symbols) : f = g := by
  obtain ⟨parts, gap, rest⟩ := f
  obtain ⟨parts', gap', rest'⟩ := g
  induction parts generalizing parts' with
  | nil =>
    cases parts' with
    | nil =>
      obtain ⟨rfl, rfl⟩ := gap_eq hf.gap hg.gap hf.starts hg.starts (by simpa [symbols] using h)
      rfl
    | cons part more =>
      obtain ⟨hg₀, hs₀⟩ := And.intro (hg.gaps part (by simp)) (hg.spans part (by simp))
      obtain ⟨-, hrest⟩ := gap_eq hf.gap hg₀ hf.starts (.inr (starts_append hs₀.starts _))
        (by simpa [symbols] using h)
      exact absurd hrest (hf.rest_ne hs₀)
  | cons part more ih =>
    obtain ⟨hg₀, hs₀⟩ := And.intro (hf.gaps part (by simp)) (hf.spans part (by simp))
    cases parts' with
    | nil =>
      obtain ⟨-, hrest⟩ := gap_eq hg₀ hg.gap (.inr (starts_append hs₀.starts _)) hg.starts
        (by simpa [symbols] using h)
      exact absurd hrest.symm (hg.rest_ne hs₀)
    | cons part' more' =>
      obtain ⟨hg₁, hs₁⟩ := And.intro (hg.gaps part' (by simp)) (hg.spans part' (by simp))
      obtain ⟨hgap, hrest⟩ := gap_eq hg₀ hg₁ (.inr (starts_append hs₀.starts _))
        (.inr (starts_append hs₁.starts _)) (by simpa [symbols] using h)
      obtain ⟨hspan, hrest⟩ := span_eq hs₀ hs₁ hrest
      have heq := ih hf.tail more' hg.tail (by simpa [symbols] using hrest)
      rw [Framing.mk.injEq] at heq ⊢
      exact ⟨by rw [Prod.ext hgap hspan, heq.1], heq.2⟩

end Framing

/-! ## §4 Scanner -/

namespace Scan

/-- The scanner that holds a text: its state, computed from the text. -/
def holding (mark : α → Mark) (w : List α) : Scan α where
  held := w.reverse
  depth := opened mark w - closed mark w
  inString := quotingAfter mark .outside w != .outside
  escaped := quotingAfter mark .outside w == .escaped

@[simp] theorem holding_nil : holding mark [] = idle := rfl

@[simp] theorem buffer_holding (w : List α) : (holding mark w).buffer = w := by
  simp [holding, buffer]

/-- One symbol behind a begun span: it ends the span where the braces
balance, and is held anywhere else. -/
theorem step_holding {w : List α} (h : IsBegun mark w) (a : α) :
    (holding mark w).step mark a
      = if opened mark (w ++ [a]) = closed mark (w ++ [a]) then (idle, some (w ++ [a]))
        else (holding mark (w ++ [a]), none) := by
  obtain ⟨d, hd⟩ := Nat.exists_eq_add_of_lt h.closed_lt_opened
  simp only [holding, step, opened_snoc, closed_snoc, quotingAfter_snoc, hd]
  generalize closed mark w = c
  -- With `d + 1` braces open, the balance is reached at `d = 0` only.
  have hdepth : c + d + 1 - c = d + 1 := by omega
  have hdeeper : c + d + 1 + 1 - c = d + 1 + 1 := by omega
  have hopen : ¬ c + d + 1 = c := by omega
  have hopener : ¬ c + d + 1 + 1 = c := by omega
  cases hq : quotingAfter mark .outside w with
  | outside =>
    cases hm : mark a with
    | opening => simp +decide [Quoting.next, hdepth, hdeeper, hopener]
    | closing =>
      cases d with
      | zero => simp +decide [idle]
      | succ d =>
        have hless : c + (d + 1) + 1 - (c + 1) = d + 1 := by omega
        simp +decide [Quoting.next, hdepth, hless]
    | quote | backslash | plain => simp +decide [Quoting.next, hdepth, hopen]
  | inside => cases hm : mark a <;> simp +decide [Quoting.next, hdepth, hopen]
  | escaped => simp +decide [Quoting.next, hdepth, hopen]

theorem step_idle_opening {a : α} (h : mark a = .opening) :
    idle.step mark a = (holding mark [a], none) := by
  simp [step, idle, holding, h, opened, closed, bareMarks, quotingAfter, Quoting.next]

end Scan

/-- Every stream has a framing, and the scanner finds it: it gives the
spans and holds what is begun. The induction adds one symbol at the end. -/
theorem exists_framing (mark : α → Mark) (symbols : List α) :
    ∃ f : Framing α, f.Valid mark ∧ f.symbols = symbols ∧
      Scan.idle.feed mark symbols = (Scan.holding mark f.rest, f.spans) := by
  induction symbols using List.reverseRecOn with
  | nil => exact ⟨⟨[], [], []⟩, ⟨by simp, by simp, by simp [Framing.IsGap], .inl rfl⟩, rfl, rfl⟩
  | append_singleton symbols a ih =>
    obtain ⟨⟨parts, gap, rest⟩, hv, rfl, hfeed⟩ := ih
    rw [Scan.feed_snoc, hfeed]
    cases hv.rest with
    | inl hnil =>
      simp only at hnil
      subst hnil
      by_cases ha : mark a = .opening
      · -- It begins a span.
        refine ⟨⟨parts, gap, [a]⟩, ⟨hv.gaps, hv.spans, hv.gap, .inr (.singleton ha)⟩,
          by simp [Framing.symbols], ?_⟩
        simp [Scan.step_idle_opening ha, Framing.spans]
      · -- It falls into the last gap.
        have hgap : Framing.IsGap mark (gap ++ [a]) :=
          List.forall_mem_append.mpr ⟨hv.gap, by simpa using ha⟩
        refine ⟨⟨parts, gap ++ [a], []⟩, ⟨hv.gaps, hv.spans, hgap, .inl rfl⟩,
          by simp [Framing.symbols], ?_⟩
        simp [Scan.step_idle ha, Framing.spans]
    | inr hbegun =>
      simp only at hbegun
      by_cases ha : opened mark (rest ++ [a]) = closed mark (rest ++ [a])
      · -- It ends the span begun.
        have hgaps : ∀ part ∈ parts ++ [(gap, rest ++ [a])], Framing.IsGap mark part.1 :=
          List.forall_mem_append.mpr ⟨hv.gaps, List.forall_mem_singleton.mpr hv.gap⟩
        have hspans : ∀ part ∈ parts ++ [(gap, rest ++ [a])], IsSpan mark part.2 :=
          List.forall_mem_append.mpr ⟨hv.spans, List.forall_mem_singleton.mpr (hbegun.span ha)⟩
        refine ⟨⟨parts ++ [(gap, rest ++ [a])], [], []⟩,
          ⟨hgaps, hspans, by simp [Framing.IsGap], .inl rfl⟩, by simp [Framing.symbols], ?_⟩
        simp [Scan.step_holding hbegun, ha, Framing.spans]
      · -- It stands in the span begun.
        refine ⟨⟨parts, gap, rest ++ [a]⟩,
          ⟨hv.gaps, hv.spans, hv.gap, .inr (hbegun.snoc ha)⟩, by simp [Framing.symbols], ?_⟩
        simp [Scan.step_holding hbegun, ha, Framing.spans]

/-- Of a stream with a framing, the scanner gives the spans and holds what
is begun. -/
theorem feed_framing {f : Framing α} (hf : f.Valid mark) :
    Scan.idle.feed mark f.symbols = (Scan.holding mark f.rest, f.spans) := by
  obtain ⟨g, hg, hsymbols, hfeed⟩ := exists_framing mark f.symbols
  obtain rfl := Framing.eq_of_symbols_eq hg hf hsymbols
  exact hfeed

/-- A text that the scanner gives back whole is a span. -/
theorem isSpan_of_feed {w : List α} (h : (Scan.idle.feed mark w).2 = [w]) : IsSpan mark w := by
  obtain ⟨⟨parts, gap, rest⟩, hv, -, hfeed⟩ := exists_framing mark w
  have hspans : parts.map Prod.snd = [w] := by
    rw [hfeed] at h
    exact h
  match parts, hspans with
  | [(before, _)], rfl => exact hv.spans (before, w) (by simp)

end Runwatch.Telemetry
