/-
Runwatch.Telemetry.Event — what a telemetry object means.

The shape of telemetry objects is not fixed: an event's attributes may
stand under `resource`, under `body` or directly in the object, its name
has two keys and several spellings, and its counts may be texts. `classify`
recognises the completion events among them; any other object is passed on
as it is.
-/
import Runwatch.Event.Completion
import Runwatch.Text.Blank

namespace Runwatch.Telemetry

open Json (Members Value)

/-- A classified telemetry object. -/
inductive Event where
  | completion (e : CompletionEvent)
  | other (raw : Value)
  deriving BEq, Repr

namespace Event

/-- The completion event, if there is one. -/
def completion? : Event → Option CompletionEvent
  | .completion e => some e
  | .other _ => none

/-- Whether the user speaks next. -/
def isUserTurn (e : Event) : Bool := e.completion?.any (·.isUserTurn)

/-- Whether an agent has finished. -/
def isAgentFinish (e : Event) : Bool := e.completion?.any (·.kind == .agentFinish)

/-- The word of an event's kind. -/
def kindWord : Event → String
  | .completion e => e.kind.word
  | .other _ => "other"

/-- An event as a JSON value. -/
def toJson : Event → Value
  | .completion e => .object [("kind", .string "completion"), ("event", e.toJson)]
  | .other raw => .object [("kind", .string "other"), ("event", raw)]

end Event

/-- A test of events. -/
inductive EventTest where
  | any
  | userTurn
  | agentFinish
  | completion
  | other
  /-- A completion event of a kind, by its word. -/
  | kind (word : String)
  deriving DecidableEq, Repr

namespace EventTest

/-- The test that a word names. -/
def ofWord : String → EventTest
  | "any" => .any
  | "user_turn" => .userTurn
  | "agent_finish" => .agentFinish
  | "completion" => .completion
  | "other" => .other
  | word => .kind word

/-- Whether an event passes a test. -/
def accepts (t : EventTest) (e : Event) : Bool :=
  match t with
  | .any => true
  | .userTurn => e.isUserTurn
  | .agentFinish => e.isAgentFinish
  | .completion => e.completion?.isSome
  | .other => e.completion?.isNone
  | .kind word => e.completion?.any (·.kind.word == word)

end EventTest

/-! ## Attributes -/

/-- The attributes below one member. -/
def attributesBelow (name : String) (v : Value) : Option Members :=
  (v.member? name).bind fun w => (w.member? "attributes").bind Value.members?

/-- The attributes of an object: the first place that holds an object. -/
def attributes? (v : Value) : Option Members :=
  (attributesBelow "resource" v).orElse fun _ =>
    (attributesBelow "body" v).orElse fun _ => (v.member? "attributes").bind Value.members?

/-- The name among the members, the dotted key first. -/
def rawName? (ms : Members) : Option String :=
  ((Members.get? ms "event.name").orElse fun _ => Members.get? ms "event_name").bind Value.text?

/-- The words in front of an event's name. -/
def namespaceWord : List Char := "gemini_cli.".toList

/-- `cs` without the namespace in front, if it stands there. -/
def dropNamespace (cs : List Char) : List Char :=
  if namespaceWord.isPrefixOf cs then cs.drop namespaceWord.length else cs

/-- The one spelling of an event's name: without blanks around it and
without the namespace, dots written as underscores. -/
def normalizeName (name : String) : String :=
  String.ofList ((dropNamespace (Text.trimBlanks name.toList)).map fun c => if c == '.' then '_' else c)

/-! ## Fields -/

/-- A count out of a value: an integer, the whole part of a number that is
not negative, at most the largest word, or a decimal text. -/
def count? : Value → Option UInt64
  | .number (.natural n) => some n
  | .number (.double d) =>
    if d.isNegative && !d.isZero then none
    else some (UInt64.ofNat (min d.wholePart (UInt64.size - 1)))
  | .string s => Text.word64? (Text.trimBlanks s.toList)
  | _ => none

/-- The count under the first of two keys that gives one. -/
def countUnder (ms : Members) (snake camel : String) : Option UInt64 :=
  ((Members.get? ms snake).bind count?).orElse fun _ => (Members.get? ms camel).bind count?

/-- The text under the first of two keys that gives one. -/
def textUnder (ms : Members) (snake camel : String) : Option String :=
  ((Members.get? ms snake).bind Value.text?).orElse fun _ => (Members.get? ms camel).bind Value.text?

/-- The completion event that a kind and its fields make. -/
def completionOf (kind : CompletionKind) (fields : Members) : Option CompletionEvent :=
  let turns := countUnder fields "turn_count" "turnCount"
  let ms := countUnder fields "duration_ms" "durationMs"
  match kind with
  | .nextSpeakerCheck =>
    (((Members.get? fields "result").bind Value.text?).bind Speaker.ofWord?).map .nextSpeakerCheck
  | .agentCompleteTask => some (.agentCompleteTask turns ms)
  | .agentFinish =>
    some (.agentFinish (textUnder fields "terminate_reason" "terminateReason") turns ms)
  | .conversationFinished => some (.conversationFinished turns ms)

/-- The completion event that an object tells of. -/
def recognize (v : Value) : Option CompletionEvent := do
  let attributes := attributes? v
  let name ← (attributes.bind rawName?).orElse fun _ => v.members?.bind rawName?
  let fields ← attributes.orElse fun _ => v.members?
  let kind ← CompletionKind.all.find? (·.word == normalizeName name)
  completionOf kind fields

/-- What a telemetry object means. -/
def classify (v : Value) : Event :=
  match recognize v with
  | some e => .completion e
  | none => .other v

end Runwatch.Telemetry
