/-
Runwatch.Cli.Arguments — reading options out of arguments.

An argument is a long option, which may carry its value behind an equals
sign, a group of short flags, the mark that ends the options, or a plain
word. An option that takes a value and does not carry it waits for the next
argument; its value is settled, that is checked and entered, when another
option begins or the arguments end. A level is a set of options with the
commands that may follow them; a command hands the arguments behind it on.

`scan` reads the arguments of one level up to its command, `settle` enters
one option.
-/
import Runwatch.Cli.KeyValue

namespace Runwatch.Cli

/-! ## Errors -/

/-- Why arguments are not a command; asking for help is among the reasons. -/
inductive UsageError where
  | help
  | version
  /-- Nothing at all was given. -/
  | nothingGiven
  | missingCommand
  | unknownCommand
  | unknownArgument
  | missingArgument
  /-- An option was given more often than it may be. -/
  | conflict
  /-- A value is missing, empty where it must not be, or not one of those
  listed. -/
  | invalidValue
  /-- A value is not of the form that it must have. -/
  | badForm
  /-- A flag carries a value. -/
  | tooManyValues
  deriving DecidableEq, Repr

/-- Whether the error is an answer to a question. -/
def UsageError.isAnswer : UsageError → Bool
  | .help | .version => true
  | _ => false

/-- The code with which the program ends. -/
def UsageError.exitCode (e : UsageError) : Nat := if e.isAnswer then 0 else 2

/-! ## Arguments -/

/-- What an argument is. -/
inductive Argument where
  /-- The mark that ends the options. -/
  | escape
  | long (name : String) (value : Option String)
  | short (flags : List Char)
  | word
  deriving DecidableEq, Repr

/-- What an argument is, by its text. -/
def Argument.ofText (text : String) : Argument :=
  match text.toList with
  | ['-', '-'] => .escape
  | '-' :: '-' :: cs =>
    match cutAtSign cs with
    | some (name, value) => .long (String.ofList name) (some (String.ofList value))
    | none => .long (String.ofList cs) none
  | '-' :: c :: cs => .short (c :: cs)
  | _ => .word

/-- The text of an option with the value that it carries. -/
def optionText (name : String) (value : Option String) : String :=
  "--" ++ name ++ (value.map ("=" ++ ·)).getD ""

/-! ## Options -/

/-- How an option is given. -/
inductive OptionKind where
  /-- At most once, without value. -/
  | flag
  /-- At most once, with a value. -/
  | once
  /-- With a value each time. -/
  | repeated
  deriving DecidableEq, Repr

/-- An option: its name, how it is given, and which values it takes. -/
structure OptionSpec where
  name : String
  kind : OptionKind
  check : String → Except UsageError Unit

/-- Options that were given, in order; a flag has an empty value. -/
abbrev Given := List (String × String)

/-- Whether an option was given. -/
def Given.has (g : Given) (name : String) : Bool := g.any (·.1 == name)

/-- The value of an option that is given once. -/
def Given.value? (g : Given) (name : String) : Option String := g.lookup name

/-- The values of an option that may be repeated. -/
def Given.values (g : Given) (name : String) : List String :=
  (g.filter (·.1 == name)).map (·.2)

/-- The value of an option that must be given. -/
def Given.required (g : Given) (name : String) : Except UsageError String :=
  match g.value? name with
  | some value => .ok value
  | none => .error .missingArgument

/-- What may stand on one level of the arguments. -/
structure Level where
  options : List OptionSpec
  commands : List String
  hasVersion : Bool

/-- The option of a name. -/
def Level.option? (l : Level) (name : String) : Option OptionSpec :=
  l.options.find? (·.name == name)

/-- Enters an option with its value, if it may be given and takes that
value. -/
def settle (o : OptionSpec) (value : Option String) (g : Given) : Except UsageError Given :=
  let again : Bool := o.kind != .repeated && g.has o.name
  match o.kind, value with
  | .flag, _ => if again then .error .conflict else .ok (g ++ [(o.name, "")])
  | _, none => .error .invalidValue
  | _, some value =>
    if again then .error .conflict
    else do
      o.check value
      pure (g ++ [(o.name, value)])

/-! ## Scanning -/

/-- How far the arguments of a level are read: what is settled, the option
that is not settled yet, whether that one waits for the next argument, and
whether the options have ended. -/
structure Progress where
  given : Given
  pending : Option (OptionSpec × Option String)
  awaiting : Bool
  ended : Bool

/-- Nothing is read. -/
def Progress.start : Progress := ⟨[], none, false, false⟩

/-- Settles the option that is not settled yet. -/
def Progress.settlePending (p : Progress) : Except UsageError Given :=
  match p.pending with
  | none => .ok p.given
  | some (o, value) => settle o value p.given

/-- The error for a word where none may stand. -/
def Level.strayWord (l : Level) (text : String) (ended : Bool) : UsageError :=
  if ended && l.commands.contains text then .unknownArgument
  else if l.commands.isEmpty then .unknownArgument
  else .unknownCommand

/-- The question that a long name or a short flag asks. -/
def Level.question? (l : Level) (long : String) (short : Option Char) : Option UsageError :=
  if long == "help" || short == some 'h' then some .help
  else if l.hasVersion && (long == "version" || short == some 'V') then some .version
  else none

/-- Reads an option with a long name. -/
def Level.readLong (l : Level) (p : Progress) (name : String) (value : Option String) :
    Except UsageError Progress :=
  match l.question? name none, l.option? name, value with
  | some _, _, some _ => .error .tooManyValues
  | some question, _, none => do
    let _ ← p.settlePending
    .error question
  | none, none, _ => .error .unknownArgument
  | none, some o, value =>
    if o.kind == .flag && value.isSome then .error .tooManyValues
    else do
      let given ← p.settlePending
      if o.kind == .flag || value.isSome then
        pure ⟨← settle o value given, none, false, false⟩
      else pure ⟨given, some (o, none), true, false⟩

/-- Reads a group of short flags. All of them ask questions, so the first
one decides. -/
def Level.readShort (l : Level) (p : Progress) (flags : List Char) :
    Except UsageError Progress :=
  match l.question? "" flags.head? with
  | some question => do
    let _ ← p.settlePending
    .error question
  | none => .error .unknownArgument

/-- Reads a word: the value that an option waits for, or none that may
stand there. -/
def Level.readWord (l : Level) (p : Progress) (text : String) : Except UsageError Progress :=
  match p.pending with
  | some (o, _) =>
    if p.awaiting then .ok { p with pending := some (o, some text), awaiting := false }
    else .error (l.strayWord text false)
  | none => .error (l.strayWord text false)

/-- Reads one argument that is no command. -/
def Level.read (l : Level) (p : Progress) (text : String) : Except UsageError Progress :=
  if p.ended then .error (l.strayWord text true)
  else match Argument.ofText text with
    | .escape => .ok { p with ended := true }
    | .long name value => l.readLong p name value
    | .short flags => l.readShort p flags
    | .word => l.readWord p text

/-- Reads the arguments of a level up to its command; gives how far they are
read, and the command with the arguments behind it. -/
def Level.scan (l : Level) (p : Progress) :
    List String → Except UsageError (Progress × Option (String × List String))
  | [] => .ok (p, none)
  | text :: rest =>
    if !p.ended && !p.awaiting && l.commands.contains text then .ok (p, some (text, rest))
    else do
      let p ← l.read p text
      l.scan p rest

end Runwatch.Cli
