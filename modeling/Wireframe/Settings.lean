import Wireframe.File
import Wireframe.Format
import Wireframe.Reading
import Wireframe.Settings.Toml
import Wireframe.Settings.Tree

/-!
# Settings

How scenes are read and shown, as users set it. The standard settings come first; files are laid
over them in the order in which they are given, and single keys that are set by hand over all files.
A file may be required or not; one that is not is passed over if it cannot be read. A file that can
be read must be well-formed TOML.

The keys are in two groups. A group is set to a table, or to a list that has the values of its keys
in order.
-/

namespace Wireframe

/-- How scenes are read and shown. -/
structure Settings where
  reading : ReadingOptions
  format : OutputFormat
  /-- Whether a drawing shows the numbers of lines. -/
  lineNumbers : Bool
  deriving DecidableEq, Repr

/-- What can be wrong with settings. -/
inductive SettingsFault
  /-- The value of a key, possibly from a file, is not what the key asks for. -/
  | misfit (cause : Misfit) (key : String) (origin : Option String)
  | unknownLocale (name : String)
  | unknownFormat (name : String)
  /-- The format is given by something that cannot be a name. -/
  | unnamedFormat
  /-- A group of keys is set to a single value. -/
  | notAGroup (found : Setting) (group : String)
  /-- A group of keys is set to a list that has not a value for each of them. -/
  | tooFew (given : Nat) (group : String) (keys : Nat)
  | missingKey (key : String)
  | missingFile (name : String)
  | unreadableFile (fault : ReadFault)
  | malformedFile (name : String)
  deriving Repr

namespace SettingsFault

/-- A fault of the settings in words. -/
def message : SettingsFault → String
  | misfit cause key origin =>
    cause.message ++ " for key \x60" ++ key ++ "\x60" ++
      match origin with
      | some name => " in " ++ name
      | none => ""
  | unknownLocale name => "unknown locale '" ++ name ++ "'"
  | unknownFormat name => "enum OutputFormat does not have variant constructor " ++ name
  | unnamedFormat =>
    "value of enum OutputFormat should be represented by either string or table with exactly one key"
  | notAGroup found group => "invalid type: " ++ found.description ++ ", expected struct " ++ group
  | tooFew given group keys =>
    "invalid length " ++ toString given ++ ", expected struct " ++ group ++ " with " ++
      toString keys ++ " elements"
  | missingKey key => "missing field \x60" ++ key ++ "\x60"
  | missingFile name => "configuration file \"" ++ name ++ "\" not found"
  | unreadableFile fault => fault.message
  | malformedFile name => "TOML parse error in " ++ name

end SettingsFault

/-- A group of keys, and what messages call it. -/
structure SettingGroup where
  name : String
  kind : String
  keys : List String
  deriving DecidableEq, Repr

namespace SettingGroup

/-- How scenes are read. -/
def parsing : SettingGroup :=
  ⟨"parsing", "ParsingConfig", ["locale", "ensure_trailing_newline", "max_parse_errors"]⟩

/-- How scenes are shown. -/
def inspect : SettingGroup :=
  ⟨"inspect", "InspectConfig", ["format", "show_line_numbers"]⟩

/-- What a key of a group is set to, and how messages name its place. A table can leave the key
    out, a list cannot. -/
def find (group : SettingGroup) (tree : SettingTree) (key : String) :
    Except SettingsFault (Option (SettingTree × String)) :=
  match tree with
  | .leaf setting _ => .error (.notAGroup setting group.kind)
  | .branch .. => .ok ((tree.find? key).map (·, group.name ++ "." ++ key))
  | .list members _ =>
    let place := group.keys.idxOf key
    match members[place]? with
    | some member => .ok (some (member, group.name ++ "[" ++ toString place ++ "]"))
    | none => .error (.tooFew members.length group.kind group.keys.length)

/-- The value of a key of a group, taken for what is asked. -/
def value {α : Type} (take : Setting → Except Misfit α) (group : SettingGroup)
    (tree : SettingTree) (key : String) : Except SettingsFault (Option α) := do
  match ← group.find tree key with
  | some (found, place) =>
    match take found.setting with
    | .ok x => return some x
    | .error misfit => .error (.misfit misfit place found.origin)
  | none => return none

end SettingGroup

namespace Settings

/-- The settings of those who set nothing. -/
def standard : Settings :=
  ⟨.standard, .drawing, false⟩

/-- The standard settings, by key. -/
def standardTree : SettingTree :=
  .ofSetting none (.table [
    ("parsing", .table [
      ("locale", .text standard.reading.locale.name),
      ("ensure_trailing_newline", .switch standard.reading.endsLastLine),
      ("max_parse_errors", .integer standard.reading.errorLimit)]),
    ("inspect", .table [
      ("format", .text standard.format.name),
      ("show_line_numbers", .switch standard.lineNumbers)])])

/-- The locale preference that a text names. -/
def localeOf (name : String) : Except SettingsFault LocalePreference :=
  match LocalePreference.ofName? name with
  | some locale => .ok locale
  | none => .error (.unknownLocale name)

/-- The format that a value names: by a text, or as the only key of a table. -/
def formatOf : Setting → Except SettingsFault OutputFormat
  | .text name | .table [(name, _)] =>
    match OutputFormat.ofName? (lowerText name) with
    | some format => .ok format
    | none => .error (.unknownFormat name)
  | _ => .error .unnamedFormat

/-- What a key is set to, unless it is missing. -/
def required {α : Type} (key : String) : Option α → Except SettingsFault α
  | some x => .ok x
  | none => .error (.missingKey key)

/-- How scenes are read, as a tree says. Values are looked at before missing keys are. -/
def readingOf (tree : SettingTree) : Except SettingsFault ReadingOptions := do
  let localeName ← SettingGroup.parsing.value Setting.toText tree "locale"
  let locale ← localeName.mapM localeOf
  let endsLastLine ← SettingGroup.parsing.value Setting.toSwitch tree "ensure_trailing_newline"
  let errorLimit ← SettingGroup.parsing.value Setting.toCount tree "max_parse_errors"
  return ⟨← required "locale" locale, ← required "ensure_trailing_newline" endsLastLine,
    ← required "max_parse_errors" errorLimit⟩

/-- The settings that a tree holds. -/
def ofTree (tree : SettingTree) : Except SettingsFault Settings := do
  let reading ← readingOf (← required "parsing" (tree.find? "parsing"))
  let inspect ← required "inspect" (tree.find? "inspect")
  let found ← SettingGroup.inspect.find inspect "format"
  let format ← found.mapM fun (tree, _) => formatOf tree.setting
  let lineNumbers ← SettingGroup.inspect.value Setting.toSwitch inspect "show_line_numbers"
  return ⟨reading, ← required "format" format, ← required "show_line_numbers" lineNumbers⟩

end Settings

/-- A file that settings are read from. -/
structure SettingsFile where
  name : String
  /-- Whether the file must be there. -/
  isRequired : Bool
  deriving DecidableEq, Repr

/-- Files that are there, by their plain paths, and what reading them as texts gives. -/
abbrev PresentFiles := List (String × Except ReadFault (List Char))

/-- Where settings come from, apart from the standard ones. -/
structure SettingsSources where
  files : List SettingsFile
  /-- The keys that are set by hand, and what to; of several for one key the last counts. -/
  overrides : List (String × Setting)

namespace SettingsSources

/-- Nothing but the standard settings. -/
def none : SettingsSources := ⟨[], []⟩

/-- Adds a file. -/
def addFile (name : String) (isRequired : Bool) (s : SettingsSources) : SettingsSources :=
  { s with files := s.files ++ [⟨name, isRequired⟩] }

/-- Sets a key by hand. -/
def override (key : String) (setting : Setting) (s : SettingsSources) : SettingsSources :=
  { s with overrides := s.overrides ++ [(key, setting)] }

/-- The file with the given name among the files that are there, also if it is named without its
    extension. -/
def find? (present : PresentFiles) (name : String) :
    Option (String × Except ReadFault (List Char)) :=
  (present.find? (·.1 = plainPath name)).or (present.find? (·.1 = plainPath name ++ ".toml"))

/-- Lays a file over a tree. -/
def layFile (present : PresentFiles) (tree : SettingTree) (file : SettingsFile) :
    Except SettingsFault SettingTree :=
  match find? present file.name with
  | some (name, .ok text) =>
    match Toml.ofText? text with
    | some fields => .ok (tree.addFile name fields)
    | .none => .error (.malformedFile name)
  | some (_, .error fault) =>
    if file.isRequired then .error (.unreadableFile fault) else .ok tree
  | .none => if file.isRequired then .error (.missingFile file.name) else .ok tree

/-- The settings, when the given files are there. -/
def settings (present : PresentFiles) (s : SettingsSources) : Except SettingsFault Settings := do
  let tree ← s.files.foldlM (layFile present) Settings.standardTree
  Settings.ofTree (s.overrides.foldl (fun tree (key, setting) =>
    tree.set key (.ofSetting Option.none setting)) tree)

end SettingsSources

end Wireframe
