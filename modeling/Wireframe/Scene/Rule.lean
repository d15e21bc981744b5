/-!
# The rules of the grammar

Every node of a scene is made by one rule of the grammar, and is named after it.
-/

namespace Wireframe

/-- The rules of the grammar. -/
inductive Rule
  | scene
  | page
  | blocks
  | alignment
  | block
  | elements
  | direction
  | item
  | list
  | value
  | literal
  | number
  | comment
  deriving DecidableEq, Repr

namespace Rule

/-- The name of a rule. -/
def name : Rule → String
  | scene => "scene"
  | page => "page"
  | blocks => "blocks"
  | alignment => "blockalign"
  | block => "block"
  | elements => "elements"
  | direction => "direction"
  | item => "item"
  | list => "list"
  | value => "value"
  | literal => "literal"
  | number => "number"
  | comment => "comment"

end Rule

end Wireframe
