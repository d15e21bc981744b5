import Wireframe.Settings.Toml.Draft
import Wireframe.Settings.Toml.Scalar
import Wireframe.Settings.Toml.Text

/-!
# TOML

Settings files are written in TOML. `Toml.ofText?` gives the fields of the outermost table, or
nothing when the text is malformed; where it is malformed is not told. Lists and tables in braces
can be nested and keys be joined up to `depthLimit`; a text that goes beyond is malformed.
-/

namespace Wireframe.Toml

/-- A text without the blanks, line breaks and comments at its front. -/
def skipFiller (inComment : Bool) : List Char → List Char
  | [] => []
  | '\r' :: '\n' :: rest => skipFiller false rest
  | c :: rest =>
    if c = '\n' then skipFiller false rest
    else if inComment then (if isPlain c then skipFiller true rest else c :: rest)
    else if isBlank c then skipFiller false rest
    else if c = '#' then skipFiller true rest
    else c :: rest

/-- The last of some keys, and those before it. -/
def splitPath (path : List String) : Option (List String × String) :=
  path.getLast?.map fun key => (path.dropLast, key)

mutual

/-- A value. `depth` is how deep lists and tables can still be nested in it, itself included. -/
def value? : Nat → Nat → List Char → Option (Setting × List Char)
  | 0, _, _ => none
  | fuel + 1, depth, text =>
    match text, depth with
    | '[' :: _, 0 | '{' :: _, 0 => none
    | '[' :: rest, depth + 1 =>
      (members? fuel depth (skipFiller false rest)).map fun (members, rest) =>
        (.list members, rest)
    | '{' :: rest, depth + 1 => do
      let rest := skipBlanks rest
      match rest with
      | '}' :: rest => return (.table [], rest)
      | _ =>
        let (fields, rest) ← pairs? fuel depth [] rest
        return (.table (settingsOf fields), rest)
    | '"' :: _, _ | '\x27' :: _, _ =>
      (quotedText? text).map fun (s, rest) => (.text (String.ofList s), rest)
    | _, _ => scalar? text

/-- The members of a list, up to its closing bracket. -/
def members? : Nat → Nat → List Char → Option (List Setting × List Char)
  | 0, _, _ => none
  | fuel + 1, depth, text =>
    match text with
    | ']' :: rest => some ([], rest)
    | _ => do
      let (member, rest) ← value? fuel depth text
      match skipFiller false rest with
      | ',' :: rest =>
        let (members, rest) ← members? fuel depth (skipFiller false rest)
        return (member :: members, rest)
      | ']' :: rest => return ([member], rest)
      | _ => none

/-- The pairs of a table in braces, up to its closing brace. -/
def pairs? : Nat → Nat → Fields → List Char → Option (Fields × List Char)
  | 0, _, _, _ => none
  | fuel + 1, depth, fields, text => do
    let (path, rest) ← path? text
    let (way, key) ← splitPath path
    match rest with
    | '=' :: rest =>
      let (setting, rest) ← value? fuel depth (skipBlanks rest)
      let fields ← fields.assign way key setting
      match skipBlanks rest with
      | ',' :: rest => pairs? fuel depth fields rest
      | '}' :: rest => return (fields, rest)
      | _ => none
    | _ => none

end

/-- What a line of a TOML text does. -/
inductive Statement
  | declare (path : List String)
  | extend (path : List String)
  | assign (path : List String) (setting : Setting)

/-- The path in a header up to its closing bracket, and the rest. -/
def header? (text : List Char) : Option (List String × List Char) :=
  match path? text with
  | some (path, ']' :: rest) => some (path, rest)
  | _ => none

/-- The statement at the front of a text, which is not blank. -/
def statement? (fuel : Nat) (text : List Char) : Option (Statement × List Char) :=
  match text with
  | '[' :: '[' :: rest =>
    match header? rest with
    | some (path, ']' :: rest) => some (.extend path, rest)
    | _ => none
  | '[' :: rest => (header? rest).map fun (path, rest) => (.declare path, rest)
  | _ =>
    match path? text with
    | some (path, '=' :: rest) =>
      (value? fuel depthLimit (skipBlanks rest)).map fun (setting, rest) =>
        (.assign path setting, rest)
    | _ => none

/-- The rest of a line that holds nothing more, without its line break. -/
def endLine? (text : List Char) : Option (List Char) :=
  match text.dropWhile isBlank with
  | '#' :: rest => breakAfter? (rest.dropWhile isPlain)
  | rest => breakAfter? rest
where
  /-- The text after a line break, or at the end. -/
  breakAfter? : List Char → Option (List Char)
    | [] => some []
    | '\n' :: rest => some rest
    | '\r' :: '\n' :: rest => some rest
    | _ => none

/-- The statements of a text, at most as many as the fuel allows. -/
def statements? : Nat → List Char → Option (List Statement)
  | 0, _ => none
  | fuel + 1, text =>
    match skipFiller false text with
    | [] => some []
    | text => do
      let (statement, rest) ← statement? fuel text
      let rest ← endLine? rest
      let more ← statements? fuel rest
      return statement :: more

/-- Carries out statements, beginning in the table at the end of a path. -/
def build (path : List String) (fields : Fields) : List Statement → Option Fields
  | [] => some fields
  | .declare header :: rest => do
    let (parent, key) ← splitPath header
    build header (← fields.declare parent key) rest
  | .extend header :: rest => do
    let (parent, key) ← splitPath header
    build header (← fields.extend parent key) rest
  | .assign keys setting :: rest => do
    let (way, key) ← splitPath keys
    build path (← fields.assignAt path way key setting) rest

/-- The fields of the outermost table of a text. A byte order mark in front is left out. -/
def ofText? (text : List Char) : Option (List (String × Setting)) :=
  let text := match text with
    | '\uFEFF' :: rest => rest
    | _ => text
  (statements? (2 * text.length + 2) text).bind fun statements =>
    (build [] [] statements).map settingsOf

end Wireframe.Toml
