import Wireframe.Scene
import Wireframe.Scene.Rule

/-!
# Nodes

Every part of a scene that a rule of the grammar makes is a *node*. A node has tokens, its *leaves*;
in the order of the source they give the node its range. Its children are listed in the order in
which they are visited, and a walk enters a node, walks its children and leaves it again.
-/

namespace Wireframe

/-! ## Leaves

The tokens of each part of a scene, field by field. -/

namespace Direction

/-- The tokens of a direction. -/
def leaves (d : Direction) : List Token :=
  d.count.toList.map Count.token ++ [d.keyword, d.lineEnd]

end Direction

namespace Item

/-- The tokens of what an item shows. -/
def contentLeaves : ItemContent → List Token
  | .widget _ keyword value => keyword :: value.toList.map Value.token
  | .literal literal => [literal.token]

/-- The tokens of an item. -/
def leaves (i : Item) : List Token :=
  contentLeaves i.content ++ [i.lineEnd]

end Item

namespace ItemList

/-- The tokens of a list. -/
def leaves (l : ItemList) : List Token :=
  l.keyword :: l.title.toList.map Value.token ++ l.headerEnd.toList ++ [l.consistsOf, l.lineEnd] ++
    l.items.flatMap Item.leaves

end ItemList

namespace Element

/-- The tokens of an entry. -/
def leaves : Element → List Token
  | item i => i.leaves
  | list l => l.leaves

end Element

namespace ElementGroup

/-- The tokens of a group of elements. -/
def leaves (g : ElementGroup) : List Token :=
  g.direction.toList.flatMap Direction.leaves ++ g.entries.flatMap Element.leaves ++ g.lineEnds

end ElementGroup

namespace Block

/-- The tokens of a block. -/
def leaves (b : Block) : List Token :=
  b.keyword :: b.title.toList.map Value.token ++ [b.lineEnd] ++ b.groups.flatMap ElementGroup.leaves

end Block

namespace Alignment

/-- The tokens of an alignment. -/
def leaves (a : Alignment) : List Token :=
  a.keyword :: a.names.map Literal.token ++ a.commas ++ [a.aligned] ++ a.direction.leaves

end Alignment

namespace BlockGroup

/-- The tokens of a group of blocks. -/
def leaves (g : BlockGroup) : List Token :=
  g.alignment.toList.flatMap Alignment.leaves ++ g.blocks.flatMap Block.leaves ++ g.lineEnds

end BlockGroup

namespace Page

/-- The tokens of a page. -/
def leaves (p : Page) : List Token :=
  p.device.toList.map DeviceTag.token ++ [p.keyword, p.title.token, p.lineEnd] ++
    p.groups.flatMap BlockGroup.leaves

end Page

namespace Scene

/-- The tokens of a scene. -/
def leaves (s : Scene) : List Token :=
  s.pages.flatMap Page.leaves ++ s.lineEnds ++ s.comments.map Comment.token

end Scene

/-! ## Nodes -/

/-- A part of a scene that a rule makes. -/
inductive Node
  | scene (scene : Scene)
  | page (page : Page)
  | blocks (group : BlockGroup)
  | alignment (alignment : Alignment)
  | block (block : Block)
  | elements (group : ElementGroup)
  | direction (direction : Direction)
  | item (item : Item)
  | list (list : ItemList)
  | value (value : Value)
  | literal (literal : Literal)
  | number (count : Count)
  | comment (comment : Comment)
  deriving DecidableEq, Repr

namespace Element

/-- An entry as a node. -/
def node : Element → Node
  | item i => .item i
  | list l => .list l

end Element

namespace Node

/-- The rule that makes a node. -/
def rule : Node → Rule
  | scene _ => .scene
  | page _ => .page
  | blocks _ => .blocks
  | alignment _ => .alignment
  | block _ => .block
  | elements _ => .elements
  | direction _ => .direction
  | item _ => .item
  | list _ => .list
  | value _ => .value
  | literal _ => .literal
  | number _ => .number
  | comment _ => .comment

/-- The tokens of a node, field by field. -/
def leaves : Node → List Token
  | scene s => s.leaves
  | page p => p.leaves
  | blocks g => g.leaves
  | alignment a => a.leaves
  | block b => b.leaves
  | elements g => g.leaves
  | direction d => d.leaves
  | item i => i.leaves
  | list l => l.leaves
  | value v => [v.token]
  | literal l => [l.token]
  | number c => [c.token]
  | comment c => [c.token]

/-- The tokens of a node in the order of the source. -/
def tokens (n : Node) : List Token :=
  sortByOffset n.leaves

/-- The smallest range that covers the tokens of a node; a node without tokens covers nothing, at
    the beginning of the text. -/
def range (n : Node) : Range :=
  (Range.boundingBox? (n.tokens.map Token.range)).getD .origin

/-- The children of what an item shows. -/
def contentChildren : ItemContent → List Node
  | .widget _ _ (some v) => [.value v]
  | .widget _ _ none => []
  | .literal l => [.literal l]

/-- The children of a node, in the order in which they are visited. -/
def children : Node → List Node
  | scene s => s.pages.map .page ++ s.comments.map .comment
  | page p => .value p.title :: p.groups.map .blocks
  | blocks g => g.alignment.toList.map .alignment ++ g.blocks.map .block
  | alignment a => a.names.map .literal ++ [.direction a.direction]
  | block b => b.title.toList.map .value ++ b.groups.map .elements
  | elements g => g.direction.toList.map .direction ++ g.entries.map Element.node
  | direction d => d.count.toList.map .number
  | item i => contentChildren i.content
  | list l => l.title.toList.map .value ++ l.items.map .item
  | value _ => []
  | literal _ => []
  | number _ => []
  | comment _ => []

end Node

end Wireframe
