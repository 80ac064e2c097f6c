/-
Runwatch.Event.Completion — what an agent's telemetry says about its end.

Four kinds of event tell that an agent has stopped: the check of who speaks
next, the completion of a task, the finish of an agent with its reason, and
the end of the conversation. Counts may be missing.
-/
import Runwatch.Json.Decode

namespace Runwatch

open Json (Decoder Value field)

/-- Who speaks next. -/
inductive Speaker where
  | user
  | model
  deriving DecidableEq, Repr

namespace Speaker

/-- Both speakers. -/
def all : List Speaker := [.user, .model]

/-- The word of a speaker. -/
def word : Speaker → String
  | .user => "user"
  | .model => "model"

/-- The speaker that a word names. -/
def ofWord? (s : String) : Option Speaker := all.find? (·.word == s)

/-- A speaker as a JSON value. -/
def toJson (s : Speaker) : Value := .string s.word

/-- Speakers by their words. -/
def words : List (String × Speaker) := all.map fun s => (s.word, s)

/-- Reads a speaker. -/
def ofJson : Decoder Speaker := .choice Decoder.isNull words

/-- Reads a speaker inside an event, where an empty object is as good as
null. -/
def ofMember : Decoder Speaker := .choice Decoder.isVoid words

end Speaker

/-- The kinds of completion events. -/
inductive CompletionKind where
  | nextSpeakerCheck
  | agentCompleteTask
  | agentFinish
  | conversationFinished
  deriving DecidableEq, Repr

/-- All kinds. -/
def CompletionKind.all : List CompletionKind :=
  [.nextSpeakerCheck, .agentCompleteTask, .agentFinish, .conversationFinished]

/-- The word of a kind. -/
def CompletionKind.word : CompletionKind → String
  | .nextSpeakerCheck => "next_speaker_check"
  | .agentCompleteTask => "agent_complete_task"
  | .agentFinish => "agent_finish"
  | .conversationFinished => "conversation_finished"

/-- An event that tells of an end. -/
inductive CompletionEvent where
  | nextSpeakerCheck (result : Speaker)
  | agentCompleteTask (turnCount durationMs : Option UInt64)
  | agentFinish (terminateReason : Option String) (turnCount durationMs : Option UInt64)
  | conversationFinished (turnCount durationMs : Option UInt64)
  deriving DecidableEq, Repr

namespace CompletionEvent

/-- The kind of an event. -/
def kind : CompletionEvent → CompletionKind
  | .nextSpeakerCheck _ => .nextSpeakerCheck
  | .agentCompleteTask _ _ => .agentCompleteTask
  | .agentFinish _ _ _ => .agentFinish
  | .conversationFinished _ _ => .conversationFinished

/-- Whether the user speaks next. -/
def isUserTurn : CompletionEvent → Bool
  | .nextSpeakerCheck .user => true
  | _ => false

/-- The fields of an event. -/
def fields : CompletionEvent → List (String × Value)
  | .nextSpeakerCheck result => [("result", result.toJson)]
  | .agentCompleteTask turns ms =>
    [("turn_count", Value.ofWord? turns), ("duration_ms", Value.ofWord? ms)]
  | .agentFinish reason turns ms =>
    [("terminate_reason", Value.ofString? reason), ("turn_count", Value.ofWord? turns),
     ("duration_ms", Value.ofWord? ms)]
  | .conversationFinished turns ms =>
    [("turn_count", Value.ofWord? turns), ("duration_ms", Value.ofWord? ms)]

/-- An event as a JSON value, its kind under `type`. -/
def toJson (e : CompletionEvent) : Value := .object (("type", .string e.kind.word) :: e.fields)

/-- The checks of the two counts. -/
def countFields : List Json.FieldCheck :=
  [field "turn_count" (Decoder.nullable Decoder.word),
   field "duration_ms" (Decoder.nullable Decoder.word)]

/-- Reads an event. -/
def ofJson : Decoder CompletionEvent :=
  Json.tagged "CompletionEvent" "type"
    [{ word := "next_speaker_check"
       title := "NextSpeakerCheck"
       fields := [field "result" Speaker.ofMember]
       build := fun s => do pure (.nextSpeakerCheck (← s.required 0 "result" Speaker.ofMember)) },
     { word := "agent_complete_task"
       title := "AgentCompleteTask"
       fields := countFields
       build := fun s => do
         let turns ← s.nullable 0 "turn_count" Decoder.word
         let ms ← s.nullable 1 "duration_ms" Decoder.word
         pure (.agentCompleteTask turns ms) },
     { word := "agent_finish"
       title := "AgentFinish"
       fields := field "terminate_reason" (Decoder.nullable Decoder.text) :: countFields
       build := fun s => do
         let reason ← s.nullable 0 "terminate_reason" Decoder.text
         let turns ← s.nullable 1 "turn_count" Decoder.word
         let ms ← s.nullable 2 "duration_ms" Decoder.word
         pure (.agentFinish reason turns ms) },
     { word := "conversation_finished"
       title := "ConversationFinished"
       fields := countFields
       build := fun s => do
         let turns ← s.nullable 0 "turn_count" Decoder.word
         let ms ← s.nullable 1 "duration_ms" Decoder.word
         pure (.conversationFinished turns ms) }]

end CompletionEvent

end Runwatch
