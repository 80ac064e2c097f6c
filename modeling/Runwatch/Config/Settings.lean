/-
Runwatch.Config.Settings — what a configuration file may set.

The layout is set field by field, the store and the push section only as a
whole; a section that is absent keeps its standard value.
-/
import Runwatch.Layout

namespace Runwatch

open Json (Decoder Dialect Value field record)

/-- Where device tokens are kept. -/
structure StoreSettings where
  path : String
  deriving DecidableEq, Repr

/-- How notifications are sent. -/
structure PushSettings where
  timeoutSecs : UInt64
  sound : String
  deriving DecidableEq, Repr

/-- A whole configuration. -/
structure Settings where
  layout : Layout
  store : StoreSettings
  push : PushSettings
  deriving DecidableEq, Repr

/-- The store used where none is set. -/
def StoreSettings.standard : StoreSettings := ⟨".sentinel/tokens.sqlite"⟩

/-- The push settings used where none are set. -/
def PushSettings.standard : PushSettings := ⟨10, "default"⟩

/-- A store section as a JSON value. -/
def StoreSettings.toJson (s : StoreSettings) : Value := .object [("sqlite_path", .string s.path)]

/-- A push section as a JSON value. -/
def PushSettings.toJson (p : PushSettings) : Value :=
  .object [("request_timeout_secs", Value.ofWord p.timeoutSecs), ("sound", .string p.sound)]

/-- Reads a store section. -/
def StoreSettings.decode (dialect : Dialect) : Decoder StoreSettings :=
  record dialect "StoreConfig" [field "sqlite_path" Decoder.path]
    fun s => do pure { path := ← s.required 0 "sqlite_path" Decoder.path }

/-- Reads a push section. -/
def PushSettings.decode (dialect : Dialect) : Decoder PushSettings :=
  record dialect "PushConfig" [field "request_timeout_secs" Decoder.word, field "sound" Decoder.text]
    fun s => do
      pure
        { timeoutSecs := ← s.required 0 "request_timeout_secs" Decoder.word
          sound := ← s.required 1 "sound" Decoder.text }

namespace Settings

/-- The configuration used where nothing is set. -/
def standard : Settings := ⟨Layout.standard, StoreSettings.standard, PushSettings.standard⟩

/-- A configuration as a JSON value. -/
def toJson (s : Settings) : Value :=
  .object [("layout", s.layout.toJson), ("store", s.store.toJson), ("push", s.push.toJson)]

/-- Reads a configuration. -/
def decode (dialect : Dialect) : Decoder Settings :=
  record dialect "SentinelConfig"
    [field "layout" (Layout.decode dialect), field "store" (StoreSettings.decode dialect),
     field "push" (PushSettings.decode dialect)]
    fun s => do
      pure
        { layout := ← s.defaulted 0 "layout" (Layout.decode dialect) Layout.standard
          store := ← s.defaulted 1 "store" (StoreSettings.decode dialect) StoreSettings.standard
          push := ← s.defaulted 2 "push" (PushSettings.decode dialect) PushSettings.standard }

end Settings

end Runwatch
