/-
Runwatch.Config.File — reading the configuration file.

The file is a TOML document. `Settings.parse` reads its text, `Settings.load`
the file, and `Settings.loadOrStandard` takes the standard settings where
there is no file.
-/
import Runwatch.Config.Settings
import Runwatch.Files.Tree
import Runwatch.Toml.Reader

namespace Runwatch

open Json (DecodeError Dialect)
open Toml (Position)

/-- Values of TOML documents: a message writes every double without
exponent, and an array may be longer than a record. -/
def tomlDialect : Dialect := ⟨⟨-400, 400⟩, true⟩

/-- Why a text holds no configuration. -/
inductive SettingsError where
  /-- It is no TOML document, as seen at a position. -/
  | malformed (position : Position)
  /-- The document does not fit; a position is known where something is
  written that it is about. -/
  | unfit (position : Option Position) (cause : DecodeError)
  deriving Repr

/-- The wording of a position. -/
def positionText (p : Position) : String :=
  "TOML parse error at line " ++ Text.decimal p.line ++ ", column " ++ Text.decimal p.column

/-- The wording of a `SettingsError`, a line for each part. -/
def SettingsError.message : SettingsError → String
  | .malformed p => positionText p
  | .unfit none cause => cause.message tomlDialect.doubles
  | .unfit (some p) cause => positionText p ++ "\n" ++ cause.message tomlDialect.doubles

/-- Why a configuration file gives no configuration. -/
inductive ConfigError where
  | read (path : String) (fault : Files.Fault)
  | parse (path : String) (cause : SettingsError)
  deriving Repr

/-- What failed with the path, without the cause. -/
def ConfigError.subject : ConfigError → String
  | .read path _ => "failed to read config file at " ++ path
  | .parse path _ => "failed to parse config at " ++ path

/-- The wording of a `ConfigError`. -/
def ConfigError.message (e : ConfigError) : String :=
  match e with
  | .read _ fault => e.subject ++ ": " ++ fault.message
  | .parse _ cause => e.subject ++ ": " ++ cause.message

namespace Settings

/-- The configuration that a text holds. -/
def parse (text : String) : Except SettingsError Settings :=
  match Toml.parse text.toList with
  | .error place => .error (.malformed (Position.ofPlace text.toList place))
  | .ok root =>
    match decode tomlDialect root.toJson with
    | .ok s => .ok s
    | .error e =>
      .error (.unfit ((root.placeAt none e.path).map (Position.ofPlace text.toList)) e)

/-- The configuration in a file. -/
def load (tree : Files.Tree) (path : String) : Except ConfigError Settings :=
  match tree.readText path with
  | .error fault => .error (.read path fault)
  | .ok text =>
    match parse text with
    | .ok s => .ok s
    | .error cause => .error (.parse path cause)

/-- The configuration in a file, and the standard one where nothing is at
its path. -/
def loadOrStandard (tree : Files.Tree) (path : String) : Except ConfigError Settings :=
  if tree.has path then load tree path else .ok standard

end Settings

end Runwatch
