import Wireframe.Vocabulary.Locale

/-!
# Output formats

The forms in which a reading can be shown, by name. How a reading is written in each of them is in
`Wireframe.Format.Formatter`.
-/

namespace Wireframe

/-- A form in which a reading is shown. -/
inductive OutputFormat
  | json
  | yaml
  /-- A drawing of the outline. -/
  | drawing
  /-- A listing of the tokens. -/
  | tokens
  /-- The scene, laid out anew. -/
  | scene
  deriving DecidableEq, Repr

namespace OutputFormat

/-- Every output format. -/
def all : List OutputFormat := [json, yaml, drawing, tokens, scene]

/-- The name of a format. -/
def name : OutputFormat → String
  | json => "json"
  | yaml => "yaml"
  | drawing => "treeviz"
  | tokens => "tokens"
  | scene => "scene"

/-- What a format shows. -/
def description : OutputFormat → String
  | json => "Parse result as JSON, errors included"
  | yaml => "Parse result as YAML, errors included"
  | drawing => "One line per syntax tree node, with icons"
  | tokens => "The token stream, one token per line"
  | scene => "The syntax tree printed back as scene text"

/-- The format with the given name, in either case. -/
def ofName? (name : String) : Option OutputFormat :=
  all.find? (·.name = plainLower name)

end OutputFormat

end Wireframe
