import Wireframe.Format.Formatter

/-!
# The command line

`scene inspect` shows a scene in one of the output formats, `scene check` reports what is wrong with
it, and `scene detect` names its locale. What is wrong with a scene goes to the error output, a line
for each error after the path of the scene.

Settings come from the file that is named, or else from `scene.toml` if it is there; options on the
command line are set over them. They are settled before the scene is read.
-/

namespace Wireframe

/-- What the options of a request say about settings. -/
structure Choices where
  /-- The file with settings. -/
  config : Option String
  locale : Option String
  format : Option String
  lineNumbers : Bool
  deriving DecidableEq, Repr

/-- What is asked for on the command line. -/
inductive Request
  | version
  | help
  | inspect (path : String) (choices : Choices)
  | detect (path : String)
  | check (path : String) (choices : Choices)
  deriving DecidableEq, Repr

/-! ## Arguments -/

/-- An option that a request can take. -/
inductive CommandOption
  | config
  | locale
  | format
  | lineNumbers
  | help
  deriving DecidableEq, Repr

namespace CommandOption

/-- The name of an option after two dashes. -/
def long : CommandOption → String
  | config => "config"
  | locale => "locale"
  | format => "format"
  | lineNumbers => "line-numbers"
  | help => "help"

/-- The letter of an option after one dash. -/
def short : CommandOption → Char
  | config => 'c'
  | locale => 'l'
  | format => 'f'
  | lineNumbers => 'n'
  | help => 'h'

/-- Whether an option stands by itself, without a value. -/
def isSwitch : CommandOption → Bool
  | lineNumbers | help => true
  | _ => false

/-- The options of `scene inspect`. -/
def ofInspect : List CommandOption := [format, lineNumbers, config, locale, help]

/-- The options of `scene check`. -/
def ofCheck : List CommandOption := [config, locale, help]

/-- The options of `scene detect`. -/
def ofDetect : List CommandOption := [help]

end CommandOption

/-- The arguments of a request taken apart. -/
structure Arguments where
  /-- The options in the order in which they are given; switches have no value. -/
  options : List (CommandOption × String)
  /-- The arguments that are no options. -/
  paths : List String

namespace Arguments

/-- Puts an option in front. -/
def consOption (option : CommandOption) (value : String) (a : Arguments) : Arguments :=
  { a with options := (option, value) :: a.options }

/-- Puts a path in front. -/
def consPath (path : String) (a : Arguments) : Arguments :=
  { a with paths := path :: a.paths }

/-- What one argument turns out to be. -/
inductive Meaning
  /-- A path. -/
  | path
  /-- The end of options. -/
  | endOfOptions
  /-- Some options that are complete. -/
  | complete (options : List (CommandOption × String))
  /-- Some options that are complete, and one whose value is the next argument. -/
  | awaiting (options : List (CommandOption × String)) (last : CommandOption)
  /-- No option that there is. -/
  | unknown

/-- Reads the letters after one dash. -/
def readLetters (known : List CommandOption) : List Char → Meaning
  | [] => .complete []
  | c :: rest =>
    match known.find? (·.short = c) with
    | none => .unknown
    | some option =>
      if option.isSwitch then
        match readLetters known rest with
        | .complete options => .complete ((option, "") :: options)
        | .awaiting options last => .awaiting ((option, "") :: options) last
        | other => other
      else
        match rest with
        | [] => .awaiting [] option
        | '=' :: value => .complete [(option, String.ofList value)]
        | value => .complete [(option, String.ofList value)]

/-- Reads the name after two dashes, possibly with a value after an equals sign. -/
def readName (known : List CommandOption) (text : List Char) : Meaning :=
  let name := text.takeWhile (· ≠ '=')
  match known.find? (·.long.toList = name), text.drop name.length with
  | none, _ => .unknown
  | some option, [] => if option.isSwitch then .complete [(option, "")] else .awaiting [] option
  | some option, _ :: value =>
    if option.isSwitch then .unknown else .complete [(option, String.ofList value)]

/-- Reads one argument. -/
def read (known : List CommandOption) (argument : String) : Meaning :=
  match argument.toList with
  | ['-', '-'] => .endOfOptions
  | '-' :: '-' :: text => readName known text
  | ['-'] => .path
  | '-' :: letters => readLetters known letters
  | _ => .path

/-- Takes arguments apart, if there is nothing in them but known options and paths. An argument that
    looks like an option is not taken for the value of another. -/
def ofList? (known : List CommandOption) : List String → Option Arguments
  | [] => some ⟨[], []⟩
  | argument :: rest =>
    match read known argument with
    | .path => (ofList? known rest).map (consPath argument)
    | .endOfOptions => some ⟨[], rest⟩
    | .complete options =>
      (ofList? known rest).map fun a => { a with options := options ++ a.options }
    | .awaiting options last =>
      match rest with
      | value :: rest =>
        match read known value with
        | .path =>
          (ofList? known rest).map fun a =>
            { a with options := options ++ (last, value) :: a.options }
        | _ => none
      | [] => none
    | .unknown => none

/-- The value of an option. -/
def value? (a : Arguments) (option : CommandOption) : Option String :=
  a.options.lookup option

/-- Whether no option is given twice. -/
def isSingle (a : Arguments) : Bool :=
  (a.options.map Prod.fst).Nodup

/-- What the options say about settings. -/
def choices (a : Arguments) : Choices :=
  ⟨a.value? .config, a.value? .locale, a.value? .format, (a.value? .lineNumbers).isSome⟩

/-- A request for one scene with the given options. -/
def request? (known : List CommandOption) (request : String → Choices → Request)
    (arguments : List String) : Option Request :=
  match ofList? known arguments with
  | some a =>
    if !a.isSingle then none
    else if (a.value? .help).isSome then some .help
    else
      match a.paths with
      | [path] => some (request path a.choices)
      | _ => none
  | none => none

end Arguments

namespace Request

/-- The request that some arguments make, if they make one. -/
def ofArguments? : List String → Option Request
  | "inspect" :: rest => Arguments.request? CommandOption.ofInspect inspect rest
  | "check" :: rest => Arguments.request? CommandOption.ofCheck check rest
  | "detect" :: rest => Arguments.request? CommandOption.ofDetect (fun path _ => detect path) rest
  | "help" :: _ => some help
  | argument :: _ =>
    if argument = "--version" || argument.startsWith "-V" then some version
    else if argument = "--help" || argument.startsWith "-h" then some help
    else none
  | [] => none

end Request

/-! ## Answers -/

/-- What a request comes to. -/
structure Answer where
  /-- Zero if all went well. -/
  code : Nat
  output : String
  errors : String
  deriving DecidableEq, Repr

/-- What reading a path gives. -/
abbrev Folder := String → Except ReadFault (List UInt8)

namespace Folder

/-- The folder that holds the given files, by their plain paths, and nothing else. -/
def ofFiles (files : List (String × List UInt8)) : Folder := fun path =>
  let plain := plainPath path
  if path.isEmpty then .error .notFound
  else
    match files.lookup plain with
    | some bytes => if path.endsWith "/" then .error .notFolder else .ok bytes
    | none =>
      if plain.isEmpty || files.any (·.1.startsWith (plain ++ "/")) then .error .isFolder
      else if files.any fun (name, _) => plain.startsWith (name ++ "/") then .error .notFolder
      else .error .notFound

/-- The text of a file. -/
def text (folder : Folder) (path : String) : Except Failure (List Char) :=
  ((folder path).bind textOfBytes).mapError (.unreadable path)

/-- The settings file with the given name, if it is there. -/
def settingsFiles (folder : Folder) (name : String) : PresentFiles :=
  [name, name ++ ".toml"].filterMap fun path =>
    match folder path with
    | .ok bytes => some (plainPath path, textOfBytes bytes)
    | .error _ => none

end Folder

/-- The settings file that is used if none is named. -/
def localSettings : String := "scene.toml"

namespace Choices

/-- The name of the settings file. -/
def settingsName (c : Choices) : String :=
  c.config.getD localSettings

/-- Where the settings come from. -/
def sources (c : Choices) : SettingsSources :=
  let named := SettingsSources.none.addFile c.settingsName c.config.isSome
  let withLocale := c.locale.elim named fun name => named.override "parsing.locale" (.text name)
  let withFormat :=
    c.format.elim withLocale fun name => withLocale.override "inspect.format" (.text name)
  if c.lineNumbers then withFormat.override "inspect.show_line_numbers" (.switch true)
  else withFormat

/-- The settings. -/
def settings (c : Choices) (folder : Folder) : Except Failure Settings :=
  (c.sources.settings (folder.settingsFiles c.settingsName)).mapError .settings

end Choices

namespace Answer

/-- An answer without errors. -/
def ok (output : String) : Answer :=
  ⟨0, output, ""⟩

/-- The answer to a request that failed, after what it wrote to the error output before. -/
def failed (before : String) (failure : Failure) : Answer :=
  ⟨1, "", before ++ "Error: " ++ failure.message ++ "\n"⟩

end Answer

/-- What is wrong with a scene, as lines after its path. -/
def diagnosticLines (path : String) (reading : Reading) : String :=
  String.join (reading.diagnostics.map fun line => path ++ ": " ++ line ++ "\n")

/-- The settings and the reading of a scene. -/
def readScene (folder : Folder) (path : String) (choices : Choices) :
    Except Failure (Settings × Reading) := do
  let settings ← choices.settings folder
  let text ← folder.text path
  return (settings, Reading.ofText settings.reading text)

namespace Request

/-- How the command is used. -/
def usage : String :=
  "Usage: scene inspect <path> [-f <format>] [-n] [-c <file>] [-l <locale>]\n" ++
  "       scene check <path> [-c <file>] [-l <locale>]\n" ++
  "       scene detect <path>\n"

/-- The version of the command. -/
def versionLine : String := "scene 0.2.0\n"

/-- The answer to a request, when paths give what the folder says. -/
def answer (folder : Folder) : Request → Answer
  | version => .ok versionLine
  | help => .ok usage
  | inspect path choices =>
    match readScene folder path choices with
    | .error failure => .failed "" failure
    | .ok (settings, reading) =>
      let lines := diagnosticLines path reading
      match FormatterTable.standard.write settings.format.name settings.lineNumbers reading with
      | .ok output => ⟨0, output, lines⟩
      | .error failure => .failed lines failure
  | detect path =>
    match folder.text path with
    | .error failure => .failed "" failure
    | .ok text =>
      match Locale.detect? text with
      | some locale => .ok (locale.id ++ "\n")
      | none => ⟨1, "", path ++ ": no page keyword found, cannot detect the locale\n"⟩
  | check path choices =>
    match readScene folder path choices with
    | .error failure => .failed "" failure
    | .ok (_, reading) =>
      match reading.locale?, reading.diagnostics with
      | some locale, [] => .ok (path ++ ": ok (" ++ locale.id ++ ")\n")
      | _, _ => ⟨1, "", diagnosticLines path reading⟩

/-- The paths that a request may read. -/
def paths : Request → List String
  | version | help => []
  | detect path => [path]
  | inspect path choices | check path choices =>
    [path, choices.settingsName, choices.settingsName ++ ".toml"]

end Request

end Wireframe
