/-
Runwatch.Proofs.Push.Wire — the text that is sent says all of a payload.

A payload starts with a title and a body, and then things are set in it, one
after the other: the sound, or one member of the data. Its wire form puts the
first three under one name and the data under another, and is sent as JSON
text. A reader of that text finds all of it again, of each member what was
set last; and what is under the first name is the same without the data.

  §1 Settings — payloads that are put together (`ofSettings`), and what is set
                last in them.
  §2 Data     — data stay in order and fit into the text (`writable_data`).
  §3 Text     — the text is read back (`parse?_wireText`).

The main statement is `Payload.wire_text_says_all`.
-/
import Runwatch.Proofs.Json.Records
import Runwatch.Proofs.Json.RoundTrip
import Runwatch.Push.Request

namespace Runwatch.Push

open Json (Members Value Writable)

/-! ## §1 Settings -/

/-- One thing that is set in a payload. -/
inductive Setting where
  | sound (s : String)
  | data (name : String) (v : Value)

namespace Setting

/-- The sound that is set. -/
def sound? : Setting → Option String
  | .sound s => some s
  | .data _ _ => none

/-- The value that is set for the member `name`. -/
def value? (name : String) : Setting → Option Value
  | .sound _ => none
  | .data n v => if name = n then some v else none

/-- The sound that is set last. -/
def lastSound? (settings : List Setting) : Option String :=
  (settings.filterMap sound?).getLast?

/-- The value that is set last for the member `name`. -/
def lastValue? (settings : List Setting) (name : String) : Option Value :=
  (settings.filterMap (value? name)).getLast?

/-- Settings without those of data. -/
def sounds (settings : List Setting) : List Setting := settings.filter (·.sound?.isSome)

/-- What comes later counts before what comes first. -/
theorem getLast?_filterMap_cons {α : Type} (f : Setting → Option α) (first : Setting)
    (settings : List Setting) :
    ((first :: settings).filterMap f).getLast? = (settings.filterMap f).getLast?.or (f first) := by
  rw [List.filterMap_cons]
  cases f first with
  | none => rw [Option.or_none]
  | some a =>
    rw [List.getLast?_cons]
    cases (settings.filterMap f).getLast? <;> rfl

theorem lastSound?_sounds (settings : List Setting) :
    lastSound? (sounds settings) = lastSound? settings := by
  have hsame : (sounds settings).filterMap sound? = settings.filterMap sound? := by
    rw [sounds, List.filterMap_filter]
    refine List.filterMap_congr fun setting _ => ?_
    cases setting <;> rfl
  rw [lastSound?, hsame, lastSound?]

end Setting

namespace Payload

open Setting (lastSound? lastValue? sounds)

/-- The payload with one thing set. -/
def set (p : Payload) : Setting → Payload
  | .sound s => p.withSound s
  | .data name v => p.withData name v

/-- A payload that is put together. -/
def ofSettings (title body : String) (settings : List Setting) : Payload :=
  settings.foldl set (ofText title body)

theorem set_sound (p : Payload) (setting : Setting) :
    (p.set setting).sound = setting.sound?.or p.sound := by
  cases setting <;> rfl

theorem get?_set_data (p : Payload) (setting : Setting) (name : String) :
    Members.get? (p.set setting).data name =
      (setting.value? name).or (Members.get? p.data name) := by
  cases setting with
  | sound => rfl
  | data n v =>
    rw [set, withData, Members.get?_insert, Setting.value?]
    split <;> rfl

/-- Title and body stay as they are, and of everything else counts what is
set last. -/
theorem foldl_set (settings : List Setting) (p : Payload) :
    (settings.foldl set p).title = p.title ∧ (settings.foldl set p).body = p.body ∧
      (settings.foldl set p).sound = (lastSound? settings).or p.sound ∧
      ∀ name, Members.get? (settings.foldl set p).data name =
        (lastValue? settings name).or (Members.get? p.data name) := by
  induction settings generalizing p with
  | nil => exact ⟨rfl, rfl, rfl, fun _ => rfl⟩
  | cons setting settings ih =>
    obtain ⟨htitle, hbody, hsound, hdata⟩ := ih (p.set setting)
    rw [List.foldl_cons, htitle, hbody, hsound, set_sound]
    refine ⟨?title, ?body, ?sound, fun name => ?data⟩
    case title => cases setting <;> rfl
    case body => cases setting <;> rfl
    case sound => rw [lastSound?, lastSound?, Setting.getLast?_filterMap_cons, Option.or_assoc]
    case data =>
      rw [hdata, get?_set_data, lastValue?, lastValue?, Setting.getLast?_filterMap_cons,
        Option.or_assoc]

/-! ## §2 Data -/

theorem writable_insert {depth : Nat} {name : String} {v : Value} {ms : Members}
    (hms : Writable (depth + 1) (.object ms)) (hv : Writable depth v) :
    Writable (depth + 1) (.object (Members.insert name v ms)) := by
  cases hms with
  | object inOrder members =>
    refine .object (Members.pairwise_insert inOrder) fun m hm => ?_
    rcases Members.mem_of_mem_insert hm with rfl | hm
    · exact hv
    · exact members m hm

/-- Data that are set are writable where their values are, one level deeper. -/
theorem writable_data {depth : Nat} {settings : List Setting}
    (h : ∀ name v, .data name v ∈ settings → Writable depth v) {p : Payload}
    (hp : Writable (depth + 1) (.object p.data)) :
    Writable (depth + 1) (.object (settings.foldl set p).data) := by
  induction settings generalizing p with
  | nil => exact hp
  | cons setting settings ih =>
    refine ih (fun name v hmem => h name v (List.mem_cons_of_mem _ hmem)) ?_
    cases setting with
    | sound => exact hp
    | data name v => exact writable_insert hp (h name v List.mem_cons_self)

theorem writable_ofSettings {depth : Nat} (title body : String) {settings : List Setting}
    (h : ∀ name v, .data name v ∈ settings → Writable depth v) :
    Writable (depth + 1) (.object (ofSettings title body settings).data) :=
  writable_data h (.object .nil nofun)

/-! ## §3 Text -/

/-- The part of a wire form that is for the device. -/
def aps (title body sound : String) : Value :=
  .object
    [("alert", .object [("body", .string body), ("title", .string title)]),
     ("sound", .string sound)]

/-- What a reader of the text that is sent finds in it, by the names of the
members. -/
def ofWireText? (text : String) : Option Payload := do
  let wire ← Json.parse? text
  let aps ← wire.member? "aps"
  let alert ← aps.member? "alert"
  let title ← (← alert.member? "title").text?
  let body ← (← alert.member? "body").text?
  let sound ← (← aps.member? "sound").text?
  let data ← (← wire.member? "data").members?
  pure ⟨title, body, some sound, data⟩

/-- What data may hold is counted from the object that holds them, which stands
in the object that is sent. -/
theorem parse?_wireText {p : Payload} (h : Writable 126 (.object p.data)) :
    Json.parse? p.wireText =
      some (.object [("aps", aps p.title p.body (p.sound.getD standardSound)),
        ("data", .object p.data)]) := by
  have halert : Writable 125 (.object [("body", .string p.body), ("title", .string p.title)]) :=
    .object_cons (.string _ _) (by decide) (.object_singleton (.string _ _))
  have haps : Writable 126 (aps p.title p.body (p.sound.getD standardSound)) :=
    .object_cons halert (by decide) (.object_singleton (.string _ _))
  have hwire : Writable Json.maxNesting p.wire :=
    .object_cons haps (by decide) (.object_singleton h)
  exact Json.parse?_compact hwire

theorem parse?_ofSettings (title body : String) {settings : List Setting}
    (h : ∀ name v, .data name v ∈ settings → Writable 125 v) :
    Json.parse? (ofSettings title body settings).wireText =
      some (.object [("aps", aps title body ((lastSound? settings).getD standardSound)),
        ("data", .object (ofSettings title body settings).data)]) := by
  obtain ⟨htitle, hbody, hsound, -⟩ := foldl_set settings (ofText title body)
  rw [parse?_wireText (writable_ofSettings title body h), ofSettings, htitle, hbody, hsound, ofText,
    Option.or_none]

/-- **The text that is sent says all of a payload.** A payload that is put
together from any texts, and from values with whole numbers that have at most
125 arrays and objects inside one another, is sent as the text of one object.
In it are title, body and sound, which is a standard one if none is set, and
the data, in the order of their names and with the value of each that is set
last. Under `aps` stands what would stand there without the data. -/
theorem wire_text_says_all (t : ActiveToken) (provider title body : String)
    {settings : List Setting} (h : ∀ name v, .data name v ∈ settings → Writable 125 v) :
    ∃ data : Members, ∃ text : String,
      (Request.ofToken t provider (ofSettings title body settings).wireText).body = text ∧
      Json.parse? text =
        some (.object
          [("aps", .object
            [("alert", .object [("body", .string body), ("title", .string title)]),
             ("sound", .string ((lastSound? settings).getD "default"))]),
           ("data", .object data)]) ∧
      ofWireText? text = some ⟨title, body, some ((lastSound? settings).getD "default"), data⟩ ∧
      data.Pairwise (fun m m' => m.1 < m'.1) ∧
      (∀ name, Members.get? data name = lastValue? settings name) ∧
      (Json.parse? text).bind (·.member? "aps") =
        (Json.parse? (ofSettings title body (sounds settings)).wireText).bind
          (·.member? "aps") := by
  obtain ⟨-, -, -, hvalues⟩ := foldl_set settings (ofText title body)
  have hread := parse?_ofSettings title body h
  have hsounds : ∀ name v, .data name v ∈ sounds settings → Writable 125 v := fun name v hmem =>
    h name v (List.mem_of_mem_filter hmem)
  have hquiet := parse?_ofSettings title body hsounds
  refine ⟨_, _, rfl, hread, ?reader, ?inOrder, fun name => ?value, ?device⟩
  case reader =>
    rw [ofWireText?, Request.ofToken, hread]
    rfl
  case inOrder =>
    cases writable_ofSettings title body h with
    | object inOrder _ => exact inOrder
  case value => exact (hvalues name).trans Option.or_none
  case device =>
    rw [Request.ofToken, hread, hquiet, Setting.lastSound?_sounds]
    rfl

/-- Data with the name of the part for the device and a text with escapes, and
a value that is replaced by one with others in it. -/
def setTwice : List Setting :=
  [.data "aps" (.string "\\\x01"), .data "run" (.number (.natural 1)), .sound "chime",
   .data "run" (.array [.object [("attempt", .number (.negative 0))], .null])]

theorem setTwice_says_all :
    ∃ data : Members,
      ofWireText? (Request.ofToken ⟨"t", .production, "app"⟩ "jwt"
        (ofSettings "é" "\"" setTwice).wireText).body = some ⟨"é", "\"", some "chime", data⟩ ∧
      Members.get? data "aps" = some (.string "\\\x01") ∧
      Members.get? data "run" =
        some (.array [.object [("attempt", .number (.negative 0))], .null]) := by
  have hobject : Writable 124 (.object [("attempt", .number (.negative 0))]) :=
    .object_singleton (.number _ trivial)
  have harray : Writable 125 (.array [.object [("attempt", .number (.negative 0))], .null]) := by
    refine .array ?_
    rw [List.forall_mem_cons, List.forall_mem_singleton]
    exact ⟨hobject, .null _⟩
  have hvalues : ∀ name v, .data name v ∈ setTwice → Writable 125 v := by
    intro name v hmem
    simp only [setTwice, List.mem_cons, Setting.data.injEq, reduceCtorEq, List.not_mem_nil,
      or_false, false_or] at hmem
    rcases hmem with ⟨-, rfl⟩ | ⟨-, rfl⟩ | ⟨-, rfl⟩
    · exact .string _ _
    · exact .number _ trivial
    · exact harray
  obtain ⟨data, text, rfl, -, hread, -, hlast, -⟩ :=
    wire_text_says_all ⟨"t", .production, "app"⟩ "jwt" "é" "\"" hvalues
  exact ⟨data, hread, (hlast "aps").trans rfl, (hlast "run").trans rfl⟩

end Payload

end Runwatch.Push
