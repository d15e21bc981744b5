import Wireframe.Scene.Layout

/-!
# What of a scene is not layout

Two scenes have the same *essence* when they differ in nothing but the ranges of tokens, the blanks
in keywords, the blanks around free text and comments, and line ends: how many blank lines a group
has, but not which groups there are.
-/

namespace Wireframe

/-! ## Changing the tokens of a scene -/

section Map

variable (f : Token → Token)

namespace Value

/-- A value with another token. -/
def map : Value → Value
  | freeText t => freeText (f t)
  | quotation t => quotation (f t)
  | placeholder t => placeholder (f t)

end Value

namespace Literal

/-- A literal with another token. -/
def map : Literal → Literal
  | quotation t => quotation (f t)
  | placeholder t => placeholder (f t)

end Literal

namespace DeviceTag

/-- A device tag with another token. -/
def map (d : DeviceTag) : DeviceTag :=
  ⟨d.device, f d.token⟩

end DeviceTag

namespace Count

/-- A count with another token. -/
def map (c : Count) : Count :=
  ⟨f c.token, c.value⟩

end Count

namespace Direction

/-- A direction with other tokens. -/
def map (d : Direction) : Direction :=
  ⟨d.count.map (Count.map f), f d.keyword, d.axis, f d.lineEnd⟩

end Direction

namespace Item

/-- What an item shows, with other tokens. -/
def mapContent : ItemContent → ItemContent
  | .widget kind keyword value => .widget kind (f keyword) (value.map (Value.map f))
  | .literal literal => .literal (literal.map f)

/-- An item with other tokens. -/
def map (i : Item) : Item :=
  ⟨mapContent f i.content, f i.lineEnd⟩

end Item

namespace ItemList

/-- A list with other tokens. -/
def map (l : ItemList) : ItemList :=
  ⟨f l.keyword, l.title.map (Value.map f), l.headerEnd.map f, f l.consistsOf, f l.lineEnd,
    l.items.map (Item.map f)⟩

end ItemList

namespace Element

/-- An entry with other tokens. -/
def map : Element → Element
  | item i => item (i.map f)
  | list l => list (l.map f)

end Element

namespace ElementGroup

/-- A group of elements with other tokens. -/
def map (g : ElementGroup) : ElementGroup :=
  ⟨g.direction.map (Direction.map f), g.entries.map (Element.map f), g.lineEnds.map f⟩

end ElementGroup

namespace Block

/-- A block with other tokens. -/
def map (b : Block) : Block :=
  ⟨f b.keyword, b.title.map (Value.map f), f b.lineEnd, b.groups.map (ElementGroup.map f)⟩

end Block

namespace Alignment

/-- An alignment with other tokens. -/
def map (a : Alignment) : Alignment :=
  ⟨f a.keyword, a.names.map (Literal.map f), a.commas.map f, f a.aligned, a.direction.map f⟩

end Alignment

namespace BlockGroup

/-- A group of blocks with other tokens. -/
def map (g : BlockGroup) : BlockGroup :=
  ⟨g.alignment.map (Alignment.map f), g.blocks.map (Block.map f), g.lineEnds.map f⟩

end BlockGroup

namespace Page

/-- A page with other tokens. -/
def map (p : Page) : Page :=
  ⟨p.device.map (DeviceTag.map f), f p.keyword, p.title.map f, f p.lineEnd,
    p.groups.map (BlockGroup.map f)⟩

end Page

namespace Comment

/-- A comment with another token. -/
def map (c : Comment) : Comment :=
  ⟨f c.token⟩

end Comment

namespace Scene

/-- A scene with other tokens. -/
def map (s : Scene) : Scene :=
  ⟨s.pages.map (Page.map f), s.lineEnds.map f, s.comments.map (Comment.map f)⟩

end Scene

end Map

/-! ## Leaving out blank lines -/

namespace ElementGroup

/-- A group of elements without its blank lines. -/
def withoutBlanks (g : ElementGroup) : ElementGroup :=
  { g with lineEnds := [] }

end ElementGroup

namespace Block

/-- A block without blank lines. -/
def withoutBlanks (b : Block) : Block :=
  { b with groups := b.groups.map ElementGroup.withoutBlanks }

end Block

namespace BlockGroup

/-- A group of blocks without blank lines. -/
def withoutBlanks (g : BlockGroup) : BlockGroup :=
  ⟨g.alignment, g.blocks.map Block.withoutBlanks, []⟩

end BlockGroup

namespace Page

/-- A page without blank lines. -/
def withoutBlanks (p : Page) : Page :=
  { p with groups := p.groups.map BlockGroup.withoutBlanks }

end Page

namespace Scene

/-- A scene without blank lines. -/
def withoutBlanks (s : Scene) : Scene :=
  ⟨s.pages.map Page.withoutBlanks, [], s.comments⟩

end Scene

/-! ## Essence -/

namespace Token

/-- The image of a token, as far as it is not layout. -/
def essentialImage (t : Token) : String :=
  match t.kind with
  | .keyword _ | .numeral _ => t.squeezed
  | .freeText | .comment => t.trimmed
  | .lineEnd => "\n"
  | _ => t.image

/-- A token, as far as it is not layout. -/
def essence (t : Token) : Token :=
  ⟨t.kind, t.essentialImage, .origin⟩

end Token

namespace Scene

/-- A scene, as far as it is not layout. -/
def essence (s : Scene) : Scene :=
  (s.map Token.essence).withoutBlanks

end Scene

end Wireframe
