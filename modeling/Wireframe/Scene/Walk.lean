import Wireframe.Scene.Node

/-!
# Walking through a scene

A walk goes through the nodes of a scene from the first to the last, parents before children. It
*enters* every node, and *leaves* those that can have a body of several lines once their children
are done.
-/

namespace Wireframe

/-- A step of a walk. -/
inductive Step
  | enter (node : Node)
  | leave (node : Node)
  deriving DecidableEq, Repr

namespace Value

/-- The walk through a value. -/
def walk (v : Value) : List Step :=
  [.enter (.value v)]

end Value

namespace Literal

/-- The walk through a literal. -/
def walk (l : Literal) : List Step :=
  [.enter (.literal l)]

end Literal

namespace Count

/-- The walk through a count. -/
def walk (c : Count) : List Step :=
  [.enter (.number c)]

end Count

namespace Direction

/-- The walk through a direction. -/
def walk (d : Direction) : List Step :=
  .enter (.direction d) :: d.count.toList.flatMap Count.walk

end Direction

namespace Item

/-- The walk through what an item shows. -/
def walkContent : ItemContent → List Step
  | .widget _ _ value => value.toList.flatMap Value.walk
  | .literal literal => literal.walk

/-- The walk through an item. -/
def walk (i : Item) : List Step :=
  .enter (.item i) :: walkContent i.content

end Item

namespace ItemList

/-- The walk through a list. -/
def walk (l : ItemList) : List Step :=
  .enter (.list l) :: l.title.toList.flatMap Value.walk ++ l.items.flatMap Item.walk ++
    [.leave (.list l)]

end ItemList

namespace Element

/-- The walk through an entry. -/
def walk : Element → List Step
  | item i => i.walk
  | list l => l.walk

end Element

namespace ElementGroup

/-- The walk through a group of elements. -/
def walk (g : ElementGroup) : List Step :=
  .enter (.elements g) :: g.direction.toList.flatMap Direction.walk ++
    g.entries.flatMap Element.walk ++ [.leave (.elements g)]

end ElementGroup

namespace Block

/-- The walk through a block. -/
def walk (b : Block) : List Step :=
  .enter (.block b) :: b.title.toList.flatMap Value.walk ++ b.groups.flatMap ElementGroup.walk ++
    [.leave (.block b)]

end Block

namespace Alignment

/-- The walk through an alignment. -/
def walk (a : Alignment) : List Step :=
  .enter (.alignment a) :: a.names.flatMap Literal.walk ++ a.direction.walk

end Alignment

namespace BlockGroup

/-- The walk through a group of blocks. -/
def walk (g : BlockGroup) : List Step :=
  .enter (.blocks g) :: g.alignment.toList.flatMap Alignment.walk ++ g.blocks.flatMap Block.walk ++
    [.leave (.blocks g)]

end BlockGroup

namespace Page

/-- The walk through a page. -/
def walk (p : Page) : List Step :=
  .enter (.page p) :: p.title.walk ++ p.groups.flatMap BlockGroup.walk ++ [.leave (.page p)]

end Page

namespace Comment

/-- The walk through a comment. -/
def walk (c : Comment) : List Step :=
  [.enter (.comment c)]

end Comment

namespace Scene

/-- The walk through a scene. -/
def walk (s : Scene) : List Step :=
  .enter (.scene s) :: s.pages.flatMap Page.walk ++ s.comments.flatMap Comment.walk ++
    [.leave (.scene s)]

end Scene

/-! ## A walk in words -/

namespace Node

/-- What a walk tells of a node that it enters. -/
def detail : Node → String
  | scene s => Text.bracketed (s.titles.map Text.quoted)
  | page p => Text.quoted p.titleText ++ " " ++ Text.optional (p.device?.map (·.keyword.name))
  | blocks g => toString g.blocks.length ++ " " ++ toString g.isEmpty
  | alignment a => Text.bracketed (a.titles.map Text.quoted)
  | block b => Text.optional (b.titleText?.map Text.quoted)
  | elements g =>
    Text.bracketed (g.entries.map fun e => Text.quoted e.node.rule.name) ++ " " ++
      toString g.items.length ++ " " ++ toString g.isEmpty
  | direction d => d.axis.name
  | item i => i.kindName ++ " " ++ Text.optional (i.text?.map Text.quoted)
  | list l => Text.optional (l.titleText?.map Text.quoted) ++ " " ++ toString l.headerEnd.isSome
  | value v => Text.quoted v.text ++ " " ++ toString v.isPlaceholder
  | literal l => Text.quoted l.text
  | number c => toString c.value
  | comment c => Text.quoted c.text

/-- The rule, the range and the number of tokens of a node. -/
def summary (n : Node) : String :=
  n.rule.name ++ " " ++ n.range.display ++ " " ++ toString n.tokens.length

end Node

namespace Step

/-- A step of a walk as a line. -/
def display : Step → String
  | enter n => "visit " ++ n.summary ++ " " ++ n.detail
  | leave n => "leave " ++ n.summary ++ " "

end Step

end Wireframe
