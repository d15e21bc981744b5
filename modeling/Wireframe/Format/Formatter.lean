import Wireframe.Document.Export
import Wireframe.Document.Json
import Wireframe.Document.Yaml
import Wireframe.Failure
import Wireframe.Scene.Layout
import Wireframe.Scene.Outline

/-!
# Formatters

A formatter writes a reading in one form. Formatters are kept by name in a table, where a later one
replaces an earlier one of its name; the standard table has one for each output format. Names are
listed in alphabetical order.
-/

namespace Wireframe

/-- Something that writes readings. -/
structure Formatter where
  name : String
  /-- What it shows; empty if nothing is to be said. -/
  description : String
  /-- Writes a reading, with the numbers of lines if they are asked for. -/
  write : Bool → Reading → Except Failure String

namespace OutputFormat

/-- What a format can show of a reading. -/
def shown {α : Type} (format : OutputFormat) (found : Option α) (write : α → String) :
    Except Failure String :=
  match found with
  | some x => .ok (write x)
  | none => .error (.nothingToShow format.name)

/-- A reading in a format. -/
def write (format : OutputFormat) (lineNumbers : Bool) (reading : Reading) :
    Except Failure String :=
  match format with
  | json => .ok reading.document.json
  | yaml =>
    match reading.document.yaml? with
    | some text => .ok text
    | none => .error .nestedTags
  | drawing => format.shown reading.scene? (·.drawing lineNumbers)
  | tokens => format.shown reading.tokens? tokenListing
  | scene => format.shown reading.scene? Scene.layout

/-- The formatter for an output format. -/
def formatter (format : OutputFormat) : Formatter :=
  ⟨format.name, format.description, format.write⟩

end OutputFormat

/-- Formatters, no two with the same name, in the order of their names. -/
structure FormatterTable where
  formatters : List Formatter

namespace FormatterTable

/-- A table without formatters. -/
def empty : FormatterTable := ⟨[]⟩

/-- Puts a formatter in its place among others. -/
def insert (f : Formatter) : List Formatter → List Formatter
  | [] => [f]
  | g :: rest =>
    if f.name < g.name then f :: g :: rest
    else if f.name = g.name then f :: rest
    else g :: insert f rest

/-- Adds a formatter, which replaces one of the same name. -/
def register (f : Formatter) (table : FormatterTable) : FormatterTable :=
  ⟨insert f table.formatters⟩

/-- The table with a formatter for each output format. -/
def standard : FormatterTable :=
  OutputFormat.all.foldl (fun table format => table.register format.formatter) empty

/-- The formatter with a name. -/
def find? (table : FormatterTable) (name : String) : Option Formatter :=
  table.formatters.find? (·.name = name)

/-- Whether there is a formatter with a name. -/
def contains (table : FormatterTable) (name : String) : Bool :=
  (table.find? name).isSome

/-- The names of the formatters. -/
def names (table : FormatterTable) : List String :=
  table.formatters.map Formatter.name

/-- Writes a reading by the formatter with a name. -/
def write (table : FormatterTable) (name : String) (lineNumbers : Bool) (reading : Reading) :
    Except Failure String :=
  match table.find? name with
  | some formatter => formatter.write lineNumbers reading
  | none => .error (.unknownFormat name)

end FormatterTable

end Wireframe
