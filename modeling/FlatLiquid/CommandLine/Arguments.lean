/-!
Contract: the arguments of the command line.

Owns:
- the commands and what each of them is told;
- the grammar of options: long and short names, values apart or attached, and the mark after which
  nothing is an option;
- the reading of an argument list, which answers none if the list is no use of the program.
-/

namespace FlatLiquid.CommandLine

/-- An option. A value that names a file may not be empty. -/
structure OptionSpec where
  name : String
  short : Option Char
  takesValue : Bool
  namesFile : Bool

/-- A flag, which is on if it is given. -/
def OptionSpec.flag (name : String) (short : Option Char) : OptionSpec :=
  ⟨name, short, false, false⟩

/-- An option that names a file. -/
def OptionSpec.file (name : String) (short : Option Char) : OptionSpec :=
  ⟨name, short, true, true⟩

/-- An option with any text. -/
def OptionSpec.text (name : String) : OptionSpec :=
  ⟨name, none, true, false⟩

/-- What an argument list gives: values under the names of options, and what is no option. -/
structure Given where
  values : List (String × String)
  positionals : List String

def Given.empty : Given := ⟨[], []⟩

def Given.value? (given : Given) (name : String) : Option String :=
  given.values.lookup name

def Given.has (given : Given) (name : String) : Bool :=
  (given.value? name).isSome

/-- Gives an option a value. An option may be given once. -/
def Given.add? (given : Given) (spec : OptionSpec) (value : String) : Option Given :=
  if given.has spec.name || (spec.namesFile && value.isEmpty) then none
  else some { given with values := given.values ++ [(spec.name, value)] }

/-- A text that starts with a dash is an option, unless it is the dash alone. -/
def looksLikeOption (text : String) : Bool :=
  match text.toList with
  | ['-'] => false
  | '-' :: _ => true
  | _ => false

/-- What one argument comes to. -/
inductive Token where
  | positional
  | unknown
  | given (given : Given)
  /-- The value of the last option is due next. -/
  | valueDue (given : Given) (spec : OptionSpec)

def readLong (specs : List OptionSpec) (given : Given) (text : List Char) : Token :=
  let name := String.ofList (text.takeWhile (· != '='))
  match specs.find? (fun spec => spec.name == name), text.dropWhile (· != '=') with
  | none, _ => .unknown
  | some spec, [] =>
    if spec.takesValue then .valueDue given spec
    else
      match given.add? spec "" with
      | some given => .given given
      | none => .unknown
  | some spec, _ :: value =>
    if spec.takesValue then
      match given.add? spec (String.ofList value) with
      | some given => .given given
      | none => .unknown
    else .unknown

/-- Reads short options that stand together, from the first letter on. The value of an option may
follow its letter, after an equals sign or not. -/
def readShort (specs : List OptionSpec) (given : Given) : List Char → Token
  | [] => .given given
  | letter :: rest =>
    match specs.find? (fun spec => spec.short == some letter) with
    | none => .unknown
    | some spec =>
      if spec.takesValue then
        match rest with
        | [] => .valueDue given spec
        | c :: tail =>
          match given.add? spec (String.ofList (if c == '=' then tail else rest)) with
          | some given => .given given
          | none => .unknown
      else
        match given.add? spec "" with
        | some given => readShort specs given rest
        | none => .unknown

def readToken (specs : List OptionSpec) (given : Given) (argument : String) : Token :=
  match argument.toList with
  | '-' :: '-' :: name => readLong specs given name
  | ['-'] => .positional
  | '-' :: letters => readShort specs given letters
  | _ => .positional

def readGiven? (specs : List OptionSpec) (given : Given) : List String → Option Given
  | [] => some given
  | argument :: rest =>
    if argument == "--" then some { given with positionals := given.positionals ++ rest }
    else
      match readToken specs given argument with
      | .unknown => none
      | .positional =>
        readGiven? specs { given with positionals := given.positionals ++ [argument] } rest
      | .given given => readGiven? specs given rest
      | .valueDue given spec =>
        match rest with
        | [] => none
        | value :: rest =>
          if looksLikeOption value then none
          else
            match given.add? spec value with
            | some given => readGiven? specs given rest
            | none => none

/-! ## Commands -/

/-- What the preview command is told. -/
structure PreviewArguments where
  template : String
  settings : Option String
  blocks : Option String
  product : Option String
  collection : Option String
  sectionId : Option String
  json : Bool
  output : Option String

/-- A command. -/
inductive Command where
  | preview (arguments : PreviewArguments)
  | schema (template : String) (asValues raw : Bool)
  | defaults (template values : String) (write : Bool)
  | diff (template values : String)

/-- The level of log output, which every command takes. -/
def logLevel : OptionSpec := .text "log-level"

/-- The single template of a command. -/
def Given.template? (given : Given) : Option String :=
  match given.positionals with
  | [template] => if template.isEmpty then none else some template
  | _ => none

def readPreview? (arguments : List String) : Option Command := do
  let specs : List OptionSpec :=
    [.file "settings" none, .file "blocks" none, .text "product", .text "collection",
      .text "section-id", .flag "json" none, .file "output" (some 'o'), logLevel]
  let given ← readGiven? specs .empty arguments
  let template ← given.template?
  some (.preview
    { template := template
      settings := given.value? "settings"
      blocks := given.value? "blocks"
      product := given.value? "product"
      collection := given.value? "collection"
      sectionId := given.value? "section-id"
      json := given.has "json"
      output := given.value? "output" })

def readSchema? (arguments : List String) : Option Command := do
  let specs : List OptionSpec := [.flag "defaults" none, .flag "raw" none, logLevel]
  let given ← readGiven? specs .empty arguments
  let template ← given.template?
  some (.schema template (given.has "defaults") (given.has "raw"))

def readDefaults? (arguments : List String) : Option Command := do
  let specs : List OptionSpec := [.file "values" none, .flag "write" (some 'w'), logLevel]
  let given ← readGiven? specs .empty arguments
  let template ← given.template?
  let values ← given.value? "values"
  some (.defaults template values (given.has "write"))

def readDiff? (arguments : List String) : Option Command := do
  let specs : List OptionSpec := [.file "values" none, logLevel]
  let given ← readGiven? specs .empty arguments
  let template ← given.template?
  let values ← given.value? "values"
  some (.diff template values)

def readNamed? : List String → Option Command
  | "preview" :: arguments => readPreview? arguments
  | "schema" :: arguments => readSchema? arguments
  | "defaults" :: arguments => readDefaults? arguments
  | "diff" :: arguments => readDiff? arguments
  | _ => none

/-- Reads a command. The level of log output may stand before its name. -/
def Command.ofArguments? (arguments : List String) : Option Command :=
  match arguments with
  | [] => none
  | first :: rest =>
    match readToken [logLevel] .empty first with
    | .unknown => none
    | .positional => readNamed? arguments
    | .given _ => readNamed? rest
    | .valueDue _ _ =>
      match rest with
      | [] => none
      | level :: rest => if looksLikeOption level then none else readNamed? rest

end FlatLiquid.CommandLine
