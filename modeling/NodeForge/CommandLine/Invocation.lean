import NodeForge.Description
import NodeForge.Store.Folder

/-!
# What a command line asks for

A command line names an action, a description and a folder for the output. Options may stand before
and behind the description; a later one wins over an earlier one.

A line is read first, and what cannot be read is wrong usage. Then its values are looked at in a
fixed order: those of the options in the order in which they were first given, the description, and
what has been left out. The first value that will not do decides what is wrong; a path that no file
system can be asked for is a fault of its own and no wrong usage.
-/

namespace NodeForge.CommandLine

/-- What is to be made of a description. -/
inductive Action where
  /-- The node model and its overview. -/
  | stage
  /-- Those, and the source of the node. -/
  | generate
deriving Repr, DecidableEq

/-- A command line that can be carried out. -/
structure Invocation where
  action : Action
  spec : Text
  /-- What the file of the description holds. -/
  content : String
  output : Text
  /-- The format of the description; `none` where it is to be found out. -/
  format : Option Description.Format
  /-- Whether the bundler puts the description together. -/
  bundles : Bool
  /-- Whether the operations of a custom schema are checked. -/
  validates : Bool
deriving Repr, DecidableEq

/-- Why a command line cannot be carried out. -/
inductive Refusal where
  | wrongUsage
  /-- A path in it is none. -/
  | store (fault : StoreFault)
deriving Repr, DecidableEq

/-! ### Reading -/

/-- The name of the choice to find the format out. -/
def autoName : Text := "auto"

/-- The name under which a format is asked for. -/
def formatName (format : Option Description.Format) : Text :=
  (format.map Description.Format.name).getD autoName

/-- The choices for the format under their names. -/
def formatChoices : List (Text × Option Description.Format) :=
  [none, some .openApi, some .custom].map fun f => (formatName f, f)

/-- An option with a value. -/
inductive Setting where
  | output
  | format
deriving Repr, DecidableEq

/-- What the arguments of a command say. -/
structure Options where
  /-- The arguments that are no options. -/
  plain : List Text
  /-- The options with values, in the order in which they were first given. -/
  settings : List (Setting × Text)
  bundles : Bool
  validates : Bool

/-- The options before any argument. -/
def Options.start : Options := ⟨[], [], false, false⟩

/-- Gives an option a value. -/
def Options.set (setting : Setting) (value : Text) (o : Options) : Options :=
  { o with settings := Entries.put setting value o.settings }

/-- What an argument is. -/
inductive Argument where
  /-- The description. -/
  | plain
  /-- The mark behind which all arguments are plain. -/
  | mark
  /-- An option that takes no value. -/
  | flag (set : Options → Options)
  /-- An option with a value, which is the next argument unless it is given with the option. -/
  | setting (setting : Setting) (value : Option Text)
  | unknown

/-- Whether an argument is an option: it begins with a hyphen and does not end there. -/
def isOption (text : Text) : Bool := Text.startsWith "-" text && text.length != 1

/-- The flags under their names. -/
def flags : List (Text × (Options → Options)) :=
  [("--bundle", fun o => { o with bundles := true }),
    ("--validate", fun o => { o with validates := true })]

/-- The options with values under their names. -/
def settingNames : List (Text × Setting) := [("--output", .output), ("--format", .format)]

/-- An option with a long name: what follows an equals sign is its value. -/
def longOption (text : Text) : Argument :=
  let (name, value) := Rows.cutAtFirst (Sign.char '=') text
  let value? := if text.any (· == '=') then some value else none
  match flags.lookup name, settingNames.lookup name, value? with
  | some set, _, none => .flag set
  | _, some setting, value? => .setting setting value?
  | _, _, _ => .unknown

/-- What an argument of a command is. A short name is one letter, and its value may follow at
once. -/
def Argument.ofText (text : Text) : Argument :=
  if !isOption text then .plain
  else if text == "--" then .mark
  else if Text.startsWith "--" text then longOption text
  else
    match text.tail with
    | .char 'o' :: value => .setting .output (if value.isEmpty then none else some value)
    | _ => .unknown

/-- Reads the arguments of a command. -/
def readOptions : List Text → Options → Option Options
  | [], o => some o
  | text :: rest, o =>
    match Argument.ofText text with
    | .plain => readOptions rest { o with plain := o.plain ++ [text] }
    | .mark => some { o with plain := o.plain ++ rest }
    | .flag set => readOptions rest (set o)
    | .setting setting (some value) => readOptions rest (o.set setting value)
    | .setting setting none =>
      match rest with
      | value :: rest => readOptions rest (o.set setting value)
      | [] => none
    | .unknown => none

/-- Whether an argument before the command asks for more messages. -/
def isVerbose (text : Text) : Bool :=
  text == "--verbose" || (isOption text && text.tail.all (· == Sign.char 'v'))

/-- What stands behind the options before the command. -/
def behindCommonOptions : List Text → Option (List Text)
  | [] => none
  | text :: rest =>
    if text == "--" then some rest
    else if isVerbose text then behindCommonOptions rest
    else if isOption text then none
    else some (text :: rest)

/-- The actions under their names. -/
def actions : List (Text × Action) := [("stage", .stage), ("generate", .generate)]

/-- The action of a line, and what its other arguments say; `none` where it cannot be read. -/
def readArguments (arguments : List Text) : Option (Action × Options) := do
  match ← behindCommonOptions arguments with
  | [] => none
  | command :: rest => return (← actions.lookup command, ← readOptions rest Options.start)

/-! ### Looking at the values -/

/-- What there is at a path, for each path that can be asked for. -/
abbrev Lookup := Text → InStore Entry

/-- What there is at a path. -/
def entryAt (find : Lookup) (path : Text) : Except Refusal Entry := (find path).mapError .store

/-- The value of an option has to be a choice, or a path to something else than a file. -/
def checkSetting (find : Lookup) : Setting → Text → Except Refusal Unit
  | .output, path => do
    match ← entryAt find path with
    | .file _ => throw .wrongUsage
    | .folder | .absent => return
  | .format, name =>
    if (formatChoices.lookup name).isSome then return else throw .wrongUsage

/-- What the file of the description holds; there has to be one. -/
def contentAt (find : Lookup) (path : Text) : Except Refusal String := do
  match ← entryAt find path with
  | .file content => return content
  | .folder | .absent => throw .wrongUsage

/-- What has been found, or else the line is used wrongly. -/
def demanded {α : Type} : Option α → Except Refusal α
  | some a => .ok a
  | none => .error .wrongUsage

/-- What a command line asks for. -/
def Invocation.ofArguments (find : Lookup) (arguments : List Text) :
    Except Refusal Invocation := do
  let (action, options) ← demanded (readArguments arguments)
  options.settings.forM fun (setting, value) => checkSetting find setting value
  let spec ← demanded options.plain.head?
  let content ← contentAt find spec
  let output ← demanded (options.settings.lookup .output)
  if 1 < options.plain.length then throw .wrongUsage
  let format := (options.settings.lookup .format).bind fun name => formatChoices.lookup name
  return ⟨action, spec, content, output, format.join, options.bundles, options.validates⟩

end NodeForge.CommandLine
