/-
Runwatch.Push.Payload — the content of a notification.

A payload has a title and a body, may name a sound and carries data for the
receiving program. Its wire form keeps the part for the device apart from
the data, so that no data member reaches it.
-/
import Runwatch.Json.Decode
import Runwatch.Json.Writer

namespace Runwatch.Push

open Json (Decoder Members Value field record jsonDialect)

/-- The content of a notification. -/
structure Payload where
  title : String
  body : String
  sound : Option String
  data : Members
  deriving BEq, Repr

namespace Payload

/-- A payload without sound and data. -/
def ofText (title body : String) : Payload := ⟨title, body, none, []⟩

/-- The payload with a sound. -/
def withSound (p : Payload) (sound : String) : Payload := { p with sound := some sound }

/-- The payload with one data member set. -/
def withData (p : Payload) (name : String) (v : Value) : Payload :=
  { p with data := Members.insert name v p.data }

/-- The sound of a payload that names none. -/
def standardSound : String := "default"

/-- The wire form of a payload. -/
def wire (p : Payload) : Value :=
  .object
    [("aps",
      .object
        [("alert", .object [("body", .string p.body), ("title", .string p.title)]),
         ("sound", .string (p.sound.getD standardSound))]),
     ("data", .object p.data)]

/-- The text that is sent. -/
def wireText (p : Payload) : String := Json.compact p.wire

/-- A payload as a JSON value. -/
def toJson (p : Payload) : Value :=
  .object
    [("title", .string p.title), ("body", .string p.body), ("sound", Value.ofString? p.sound),
     ("data", .object p.data)]

/-- Reads a payload. -/
def ofJson : Decoder Payload :=
  record jsonDialect "PushPayload"
    [field "title" Decoder.text, field "body" Decoder.text,
     field "sound" (Decoder.nullable Decoder.text), field "data" Decoder.members]
    fun s => do
      pure
        { title := ← s.required 0 "title" Decoder.text
          body := ← s.required 1 "body" Decoder.text
          sound := ← s.defaulted 2 "sound" (Decoder.nullable Decoder.text) none
          data := ← s.defaulted 3 "data" Decoder.members [] }

end Payload

end Runwatch.Push
