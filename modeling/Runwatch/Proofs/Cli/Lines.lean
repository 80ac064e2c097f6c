/-
Runwatch.Proofs.Cli.Lines — the line of an event.

A line encodes an event (`Encodes`) if it is one line and a JSON text of an
object that tells of the event: its kind under `kind`, and under `event` either
the fields of a completion, as they are read, or the very object that stood in
the log. This is what is printed for every event that is read out of a log
(`encodes_compact`).
-/
import Runwatch.Proofs.Json.Forms
import Runwatch.Proofs.Json.Spelling
import Runwatch.Proofs.Telemetry.Objects
import Runwatch.Telemetry.Event

namespace Runwatch.Cli

open Json (Legible Regular Value)
open Telemetry (Event Framing classify)

/-- The object that tells of an event, its members in order. -/
inductive Tells : Value → Event → Prop where
  | completion {w : Value} {c : CompletionEvent} (h : CompletionEvent.ofJson w = .ok c) :
      Tells (.object [("event", w), ("kind", .string "completion")]) (.completion c)
  | other (raw : Value) :
      Tells (.object [("event", raw), ("kind", .string "other")]) (.other raw)

/-- An event whose object is read back where it stands in a line: its numbers are
whole, and one level fewer is nested in it than a text may have. -/
def IsLegible : Event → Prop
  | .completion _ => True
  | .other raw => Legible (Json.maxNesting - 1) raw

/-- A line that is the JSON encoding of an event. -/
structure Encodes (line : String) (e : Event) : Prop where
  oneLine : Json.IsClean line.toList
  spelled : ∃ v, Json.Spells line.toList v ∧ Tells v.sorted e
  readBack : IsLegible e → ∃ v, Json.parse? line = some v ∧ Tells v e

/-- A completion is an object of words and whole numbers. -/
theorem legible_completion (c : CompletionEvent) (depth : Nat) : Legible (depth + 1) c.toJson := by
  have hcount (n : Option UInt64) : Legible depth (Value.ofWord? n) := by
    cases n with
    | none => exact .null depth
    | some n => exact .number depth trivial
  have hreason (s : Option String) : Legible depth (Value.ofString? s) := by
    cases s with
    | none => exact .null depth
    | some s => exact .string depth s
  refine .object (List.forall_mem_cons.mpr ⟨.string depth _, ?_⟩)
  cases c with
  | nextSpeakerCheck s => exact List.forall_mem_singleton.mpr (.string depth s.word)
  | agentFinish reason turns ms => simp [CompletionEvent.fields, hreason, hcount]
  | agentCompleteTask turns ms | conversationFinished turns ms =>
    simp [CompletionEvent.fields, hcount]

theorem sorted_told (kind : String) (v : Value) :
    (Value.object [("kind", .string kind), ("event", v)]).sorted =
      .object [("event", v.sorted), ("kind", .string kind)] := rfl

/-- What is written for an event tells of it, if it is kept as it was read. -/
theorem tells_sorted {e : Event} (h : ∀ raw, e = .other raw → Json.InOrder raw) :
    Tells e.toJson.sorted e := by
  cases e with
  | completion c => exact .completion c.reads
  | other raw =>
    rw [Event.toJson, sorted_told, (h raw rfl).sorted_eq]
    exact .other raw

theorem legible_event {e : Event} (h : IsLegible e) : Legible Json.maxNesting e.toJson := by
  cases e with
  | completion c =>
    exact .object (List.forall_mem_cons.mpr ⟨.string _ _,
      List.forall_mem_singleton.mpr (legible_completion c _)⟩)
  | other raw =>
    exact .object (List.forall_mem_cons.mpr ⟨.string _ _, List.forall_mem_singleton.mpr h⟩)

theorem expressible_event {e : Event} (h : ∀ raw, e = .other raw → Regular raw) :
    Json.Expressible e.toJson := by
  cases e with
  | completion c => exact (legible_event (e := .completion c) trivial).expressible
  | other raw =>
    exact .object (List.forall_mem_cons.mpr ⟨.string _,
      List.forall_mem_singleton.mpr (h raw rfl).expressible⟩)

/-- **The compact text of an event encodes it**, whatever object it tells of, if
that is as the reader gives it. -/
theorem encodes_compact {e : Event} (h : ∀ raw, e = .other raw → Regular raw) :
    Encodes (Json.compact e.toJson) e := by
  have hspells := Json.spells_compact (expressible_event h)
  have htells := tells_sorted fun raw heq => (h raw heq).inOrder
  exact ⟨hspells.isClean, ⟨_, hspells, htells⟩, fun hlegible =>
    ⟨_, Json.parse?_compact_sorted (legible_event hlegible), htells⟩⟩

/-- An event without a completion is the object it was read from. -/
theorem regular_of_classify {v raw : Value} (hv : Regular v) (h : classify v = .other raw) :
    Regular raw := by
  unfold classify at h
  split at h
  · cases h
  · exact Event.other.inj h ▸ hv

/-- So the compact texts of the first events of a log encode them one by one. -/
theorem encodes_initial {f : Framing UInt8} {es : List Event} (h : es <+: f.values.map classify) :
    List.Forall₂ Encodes (es.map fun e => Json.compact e.toJson) es := by
  rw [List.forall₂_map_left_iff, List.forall₂_same]
  intro e he
  obtain ⟨v, hv, rfl⟩ := List.mem_map.mp (h.subset he)
  obtain ⟨span, -, hread⟩ := List.mem_filterMap.mp hv
  exact encodes_compact fun raw => regular_of_classify (Json.regular_of_parseBytes? hread)

end Runwatch.Cli
