/-
Runwatch.Proofs.Telemetry.Objects — the objects of a byte stream.

The scanner sees braces and quotes, the reader behind it sees JSON. Put
together they say which objects a log holds. `feedAll_framing` says it of
every byte string: it is cut in exactly one way into gaps, spans and a
begun span, its objects are what the spans write, and a span that writes
nothing is dropped without a trace. `feedAll_concatenation` says it of what
a well-behaved writer leaves: the texts of objects one behind the other, with
anything but an opening brace between them, come back in order. In both the
stream may be cut into pieces anywhere.
-/
import Runwatch.Proofs.Json.Passage
import Runwatch.Proofs.Telemetry.Framing

namespace Runwatch.Telemetry

open Json (Value)

theorem byteMark_eq_opening_iff {b : UInt8} : byteMark b = .opening ↔ b = 0x7B := by
  grind [byteMark]

/-- A span begins with the byte of an opening brace. -/
theorem IsSpan.eq_cons {span : List UInt8} (h : IsSpan byteMark span) :
    ∃ rest, span = 0x7B :: rest := by
  match span, h.starts with
  | b :: rest, hstarts =>
    obtain rfl : b = 0x7B := byteMark_eq_opening_iff.mp (by simpa using hstarts)
    exact ⟨rest, rfl⟩

namespace Framing

/-- The values that the spans of a stream write, in order. -/
def values (f : Framing UInt8) : List Value := f.spans.filterMap Json.parseBytes?

/-- What spans write are objects. -/
theorem Valid.object_of_mem_values {f : Framing UInt8} (hf : f.Valid byteMark) {v : Value}
    (hv : v ∈ f.values) : ∃ ms, v = .object ms := by
  obtain ⟨span, hspan, hparse⟩ := List.mem_filterMap.mp hv
  obtain ⟨part, hpart, rfl⟩ := List.mem_map.mp hspan
  obtain ⟨rest, heq⟩ := (hf.spans part hpart).eq_cons
  rw [heq] at hparse
  exact Json.object_of_parseBytes? hparse

end Framing

namespace Stream

/-- A stream that is fed what a framing cuts, all at once. -/
theorem feed_framing {f : Framing UInt8} (hf : f.Valid byteMark) :
    Stream.start.feed f.symbols = (Scan.holding byteMark f.rest, f.values) := by
  rw [feed_eq, start, Telemetry.feed_framing hf]
  rfl

/-- The depth of a scanner counts the open braces of what it holds. -/
theorem depth_holding {w : List UInt8} (h : w = [] ∨ IsBegun byteMark w) :
    (Scan.holding byteMark w).depth + closed byteMark w = opened byteMark w := by
  cases h with
  | inl hnil => rw [hnil]; rfl
  | inr hbegun => have := hbegun.closed_lt_opened; simp only [Scan.holding]; omega

/-- **Every byte stream is read by its framing.** There is exactly one cut
of the bytes into gaps, spans and what is begun. In whatever pieces they
arrive, the values given are those that the spans write, all of them
objects, and what is begun is held with its open braces counted. -/
theorem feedAll_framing (pieces : List (List UInt8)) :
    ∃ f : Framing UInt8, f.Valid byteMark ∧ f.symbols = pieces.flatten ∧
      (∀ g : Framing UInt8, g.Valid byteMark → g.symbols = pieces.flatten → g = f) ∧
      (start.feedAll pieces).2 = f.spans.filterMap Json.parseBytes? ∧
      (∀ v ∈ (start.feedAll pieces).2, ∃ ms, v = .object ms) ∧
      (start.feedAll pieces).1.buffer = f.rest ∧
      (start.feedAll pieces).1.depth + closed byteMark f.rest = opened byteMark f.rest := by
  obtain ⟨f, hf, hsymbols, -⟩ := exists_framing byteMark pieces.flatten
  have hfeed : start.feedAll pieces = (Scan.holding byteMark f.rest, f.values) := by
    rw [feedAll_eq_feed, ← hsymbols, feed_framing hf]
  rw [hfeed]
  refine ⟨f, hf, hsymbols, ?_, rfl, fun v hv => hf.object_of_mem_values hv,
    Scan.buffer_holding f.rest, depth_holding hf.rest⟩
  intro g hg heq
  exact Framing.eq_of_symbols_eq hg hf (heq.trans hsymbols.symm)

end Stream

/-! ## Objects one behind the other -/

/-- Bytes that write a JSON object, from its opening brace to its closing
one. -/
structure ObjectText where
  bytes : List UInt8
  members : Json.Members
  starts : bytes.head? = some 0x7B
  ends : bytes.getLast? = some 0x7D
  parses : Json.parseBytes? bytes = some (.object members)

/-- Bytes between objects: any but an opening brace. -/
structure Separator where
  bytes : List UInt8
  opensNothing : 0x7B ∉ bytes

theorem ObjectText.isSpan (t : ObjectText) : IsSpan byteMark t.bytes :=
  isSpan_of_feed (by rw [Json.feed_object t.starts t.ends t.parses])

theorem Separator.isGap (s : Separator) : Framing.IsGap byteMark s.bytes := by
  intro b hb hopen
  rw [byteMark_eq_opening_iff.mp hopen] at hb
  exact s.opensNothing hb

/-- Objects, each behind a separator, and a last separator. -/
def concatenation (parts : List (Separator × ObjectText)) (last : Separator) : List UInt8 :=
  parts.flatMap (fun (separator, text) => separator.bytes ++ text.bytes) ++ last.bytes

/-- The cut of a concatenation. -/
def Framing.ofParts (parts : List (Separator × ObjectText)) (last : Separator) :
    Framing UInt8 where
  parts := parts.map fun (separator, text) => (separator.bytes, text.bytes)
  gap := last.bytes
  rest := []

namespace Framing

theorem symbols_ofParts (parts : List (Separator × ObjectText)) (last : Separator) :
    (ofParts parts last).symbols = concatenation parts last := by
  simp [ofParts, symbols, concatenation, List.flatMap_map]

theorem valid_ofParts (parts : List (Separator × ObjectText)) (last : Separator) :
    (ofParts parts last).Valid byteMark where
  gaps := by
    intro part hpart
    obtain ⟨p, -, rfl⟩ := List.mem_map.mp hpart
    exact p.1.isGap
  spans := by
    intro part hpart
    obtain ⟨p, -, rfl⟩ := List.mem_map.mp hpart
    exact p.2.isSpan
  gap := last.isGap
  rest := .inl rfl

theorem values_ofParts (parts : List (Separator × ObjectText)) (last : Separator) :
    (ofParts parts last).values = parts.map fun p => .object p.2.members := by
  induction parts with
  | nil => rfl
  | cons p rest ih =>
    simp only [values, spans, ofParts, List.map_cons, List.filterMap_cons, p.2.parses] at ih ⊢
    rw [ih]

end Framing

/-- **Objects one behind the other come back in order.** Whatever stands
between them that opens no brace, and wherever the bytes are cut, the
stream gives the value of each and is left idle. -/
theorem Stream.feedAll_concatenation (parts : List (Separator × ObjectText)) (last : Separator)
    (pieces : List (List UInt8)) (h : pieces.flatten = concatenation parts last) :
    Stream.start.feedAll pieces = (Stream.start, parts.map fun p => .object p.2.members) := by
  rw [Stream.feedAll_eq_feed, h, ← Framing.symbols_ofParts,
    Stream.feed_framing (Framing.valid_ofParts parts last), Framing.values_ofParts]
  rfl

/-- An object with a closing brace, an escaped quote and a longer character
in a string. -/
def ObjectText.quoting : ObjectText where
  bytes := [0x7B, 0x22, 0x6B, 0x22, 0x3A, 0x22, 0x7D, 0x5C, 0x22, 0xC3, 0xA9, 0x22, 0x7D]
  members := [("k", .string "\x7d\"é")]
  starts := rfl
  ends := rfl
  parses := rfl

/-- An object in an object, with an array. -/
def ObjectText.nested : ObjectText where
  bytes := [0x7B, 0x22, 0x6E, 0x22, 0x3A, 0x7B, 0x22, 0x6D, 0x22, 0x3A, 0x5B, 0x31, 0x5D,
    0x7D, 0x7D]
  members := [("n", .object [("m", .array [.number (.natural 1)])])]
  starts := rfl
  ends := rfl
  parses := rfl

/-- A stray quote, a closing brace, a backslash and a byte of no text. -/
def Separator.noise : Separator := ⟨[0x22, 0x7D, 0x5C, 0xFF], by decide⟩

/-- Two objects with noise around them. -/
def noisyParts : List (Separator × ObjectText) := [(.noise, .quoting), (.noise, .nested)]

/-- Their bytes, cut behind the backslash of the escape, in the longer
character and before a closing brace. -/
def noisyPieces : List (List UInt8) :=
  [[0x22, 0x7D, 0x5C, 0xFF, 0x7B, 0x22, 0x6B, 0x22, 0x3A, 0x22, 0x7D, 0x5C], [0x22, 0xC3], [],
    [0xA9, 0x22, 0x7D, 0x22, 0x7D, 0x5C, 0xFF, 0x7B, 0x22, 0x6E, 0x22, 0x3A, 0x7B, 0x22],
    [0x6D, 0x22, 0x3A, 0x5B, 0x31, 0x5D, 0x7D], [0x7D, 0x22, 0x7D, 0x5C, 0xFF]]

/-- Both come back, and nothing of the noise is left. -/
theorem Stream.feedAll_noisyPieces :
    noisyPieces.flatten = concatenation noisyParts .noise ∧
      Stream.start.feedAll noisyPieces = (Stream.start, [.object [("k", .string "\x7d\"é")],
        .object [("n", .object [("m", .array [.number (.natural 1)])])]]) :=
  ⟨rfl, Stream.feedAll_concatenation noisyParts .noise noisyPieces rfl⟩

end Runwatch.Telemetry
