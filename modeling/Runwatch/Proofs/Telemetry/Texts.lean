/-
Runwatch.Proofs.Telemetry.Texts — a byte stream that writes a text.

A stream is scanned byte by byte, and a piece of it may end inside a
character. A text could as well be scanned by its characters, each span that
ends being read as text (`TextStream`). The two give the same objects, and
at the end of every character they stand alike. In between, the byte scanner
is ahead by the front of a character: no span ends there and no brace is
counted, but a pending backslash is already settled by the first byte of the
character behind it.

  §1 Values — bytes that write a text are read as the text
              (`Json.parseBytes?_encode`), and a text scanned by its
              characters (`TextStream`).
  §2 Fronts — some first bytes of a text are whole characters and the front
              of one more (`exists_front`); what a byte scanner makes of
              them (`Scan.partway`, `Scan.feed_partway`).
  §3 Pieces — the same of a stream (`Stream.feedAll_partway`), and the main
              statement, `Stream.feedAll_text`.
-/
import Runwatch.Proofs.Telemetry.Characters

/-! ## §1 Values -/

namespace Runwatch.Json

open Text.Utf8 (encode)

/-- The bytes of a text write what the text writes. -/
theorem parseBytes?_encode (cs : List Char) : parseBytes? (encode cs) = parseChars? cs := by
  rw [parseBytes?, Text.Utf8.decode?_encode]
  rfl

end Runwatch.Json

namespace Runwatch.Telemetry

open Json (Value)
open Text.Utf8 (encode encodeChar encode_cons)

/-- A text that is scanned by its characters, between two pieces. -/
abbrev TextStream := Scan Char

namespace TextStream

/-- A text of which nothing is read. -/
def start : TextStream := Scan.idle

/-- Takes characters; gives the objects that they complete, each span being
read as text. -/
def feed (s : TextStream) (piece : List Char) : TextStream × List Value :=
  let (s, spans) := Scan.feed charMark s piece
  (s, spans.filterMap Json.parseChars?)

end TextStream

/-! ## §2 Fronts -/

/-- Bytes that begin a character and do not end it. -/
def IsFront (front : List UInt8) : Prop := ∃ c, front <+: encodeChar c ∧ front ≠ encodeChar c

theorem isFront_nil : IsFront [] := ⟨'a', List.nil_prefix, (encodeChar_ne_nil 'a').symm⟩

/-- No byte of a front is a mark. -/
theorem IsFront.plain {front : List UInt8} (h : IsFront front) (hne : front ≠ []) :
    ∀ b ∈ front, byteMark b = .plain := by
  intro b hb
  obtain ⟨c, hbegins, hpart⟩ := h
  by_cases hc : c.toNat < 0x80
  · -- Of a single byte, the front is nothing or all of it.
    obtain ⟨a, ha, -⟩ := encodeChar_ascii hc
    rw [ha] at hbegins hpart
    cases List.prefix_cons_iff.mp hbegins with
    | inl hnil => exact absurd hnil hne
    | inr hcons =>
      obtain ⟨rest, rfl, hrest⟩ := hcons
      rw [List.prefix_nil.mp hrest] at hpart
      exact absurd rfl hpart
  · exact byteMark_of_le (le_of_mem_encodeChar (by omega) (hbegins.subset hb))

/-- Some first bytes of a text are its first characters and the front of the
next. -/
theorem exists_front {text : List Char} {bytes : List UInt8} (h : bytes <+: encode text) :
    ∃ seen front, seen <+: text ∧ IsFront front ∧ bytes = encode seen ++ front := by
  induction text generalizing bytes with
  | nil =>
    have hnil : bytes = [] := List.prefix_nil.mp h
    exact ⟨[], [], List.nil_prefix, isFront_nil, hnil⟩
  | cons c rest ih =>
    rw [encode_cons] at h
    cases List.prefix_or_prefix_of_prefix h (List.prefix_append _ _) with
    | inl hpart =>
      by_cases hwhole : bytes = encodeChar c
      · exact ⟨[c], [], by simp, isFront_nil, by simp [hwhole]⟩
      · exact ⟨[], bytes, List.nil_prefix, ⟨c, hpart, hwhole⟩, rfl⟩
    | inr hbeyond =>
      obtain ⟨more, rfl⟩ := hbeyond
      obtain ⟨seen, front, hseen, hfront, rfl⟩ := ih ((List.prefix_append_right_inj _).mp h)
      exact ⟨c :: seen, front, List.cons_prefix_cons.mpr ⟨rfl, hseen⟩, hfront, by simp⟩

namespace Scan

theorem buffer_encoded (s : Scan Char) : s.encoded.buffer = encode s.buffer :=
  List.reverse_reverse _

/-- The byte scanner that is ahead of a character scanner by the front of a
character. -/
def partway (s : Scan Char) (front : List UInt8) : Scan UInt8 :=
  if front.isEmpty then s.encoded else s.encoded.passed front

/-- A byte scanner gives the spans of the characters that are whole, and
none in the front of the next. -/
theorem feed_partway (s : Scan Char) (cs : List Char) {front : List UInt8} (h : IsFront front) :
    s.encoded.feed byteMark (encode cs ++ front)
      = ((s.feed charMark cs).1.partway front, (s.feed charMark cs).2.map encode) := by
  rw [feed_append, feed_encode]
  cases front with
  | nil => simp [partway]
  | cons b more =>
    have hne : b :: more ≠ [] := List.cons_ne_nil b more
    simp [partway, feed_plain _ hne (h.plain hne)]

end Scan

/-! ## §3 Pieces -/

namespace Stream

/-- A stream that is fed whole characters and the front of the next, in
pieces. -/
theorem feedAll_partway {pieces : List (List UInt8)} {cs : List Char} {front : List UInt8}
    (hfront : IsFront front) (h : pieces.flatten = encode cs ++ front) :
    start.feedAll pieces
      = ((TextStream.start.feed cs).1.partway front, (TextStream.start.feed cs).2) := by
  have hscan : Scan.idle.feed byteMark (encode cs ++ front)
      = ((Scan.idle.feed charMark cs).1.partway front, (Scan.idle.feed charMark cs).2.map encode) :=
    Scan.feed_partway Scan.idle cs hfront
  rw [feedAll_eq_feed, h, feed_eq, start, hscan, List.filterMap_map]
  simp only [Function.comp_def, Json.parseBytes?_encode]
  rfl

/-- The same for pieces that end with a character. -/
theorem feedAll_encode {pieces : List (List UInt8)} {cs : List Char}
    (h : pieces.flatten = encode cs) :
    start.feedAll pieces
      = ((TextStream.start.feed cs).1.encoded, (TextStream.start.feed cs).2) :=
  feedAll_partway isFront_nil (by rw [h, List.append_nil])

/-- **Scanning bytes is as good as scanning characters.** Of a text whose
bytes arrive in whatever pieces, a stream gives the objects that a scan of
its characters gives. It does so from piece to piece: where some pieces end,
it has given the objects of the characters that are whole by then, and is
ahead by the front of the next one at most. Where they end with a character,
it holds the bytes of what the other scan holds, at the same depth and in the
same place towards strings. -/
theorem feedAll_text (text : String) (pieces : List (List UInt8))
    (h : pieces.flatten = Text.Utf8.bytes text) :
    (start.feedAll pieces).2 = (TextStream.start.feed text.toList).2 ∧
    ∀ before after, pieces = before ++ after →
      (∃ seen front, seen <+: text.toList ∧ IsFront front ∧
        before.flatten = encode seen ++ front ∧
        start.feedAll before
          = ((TextStream.start.feed seen).1.partway front, (TextStream.start.feed seen).2)) ∧
      ∀ seen, before.flatten = encode seen →
        (start.feedAll before).1.buffer = encode (TextStream.start.feed seen).1.buffer ∧
        (start.feedAll before).1.depth = (TextStream.start.feed seen).1.depth ∧
        (start.feedAll before).1.inString = (TextStream.start.feed seen).1.inString ∧
        (start.feedAll before).1.escaped = (TextStream.start.feed seen).1.escaped := by
  refine ⟨congrArg Prod.snd (feedAll_encode h), ?_⟩
  rintro before after rfl
  refine ⟨?partway, ?ends⟩
  case partway =>
    have hbegins : before.flatten <+: encode text.toList :=
      ⟨after.flatten, List.flatten_append.symm.trans h⟩
    obtain ⟨seen, front, hseen, hfront, hbytes⟩ := exists_front hbegins
    exact ⟨seen, front, hseen, hfront, hbytes, feedAll_partway hfront hbytes⟩
  case ends =>
    intro seen hseen
    rw [feedAll_encode hseen]
    exact ⟨Scan.buffer_encoded _, rfl, rfl, rfl⟩

/-- An object with a longer character in a name, and a span begun with a
backslash in front of that character. -/
def accented : String := "\x7b\"é\":\x7b\x7d\x7d\x7b\"\\é"

/-- Its bytes, cut in both of the characters. -/
def accentedPieces : List (List UInt8) :=
  [[0x7B, 0x22, 0xC3], [0xA9, 0x22, 0x3A, 0x7B, 0x7D, 0x7D, 0x7B, 0x22, 0x5C, 0xC3], [0xA9]]

/-- The object comes back, and behind the last character the stream is in a
string with no backslash pending. -/
theorem feedAll_accentedPieces :
    accentedPieces.flatten = Text.Utf8.bytes accented ∧
      (start.feedAll accentedPieces).2 = [.object [("é", .object [])]] ∧
      (start.feedAll accentedPieces).1.buffer = [0x7B, 0x22, 0x5C, 0xC3, 0xA9] ∧
      (start.feedAll accentedPieces).1.inString = true ∧
      (start.feedAll accentedPieces).1.escaped = false := by
  have hbytes : accentedPieces.flatten = Text.Utf8.bytes accented := rfl
  have hchars : accented.toList = ['\x7b', '"', 'é', '"', ':', '\x7b', '\x7d', '\x7d',
    '\x7b', '"', '\\', 'é'] := rfl
  obtain ⟨hvalues, hcuts⟩ := feedAll_text accented accentedPieces hbytes
  obtain ⟨-, hends⟩ := hcuts accentedPieces [] rfl
  obtain ⟨hbuffer, -, hstring, hescaped⟩ := hends accented.toList hbytes
  rw [hchars] at hvalues hbuffer hstring hescaped
  exact ⟨hbytes, hvalues, hbuffer, hstring, hescaped⟩

end Stream

end Runwatch.Telemetry
