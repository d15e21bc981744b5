import Wireframe.Scene

/-!
# Arrangement

How the parts of a page are laid out once everything is resolved. A direction says along which axis
the members of a group go and how many stand side by side; without one they form a single column.

An alignment names blocks by their titles. A name means the first block of the page with that
title. That block moves to the group of the alignment, in the order of the names; a block that
is named more than once stays where it is named first, and a name that no block has is passed
over. The other blocks stay in their own groups, after those that have moved there. Groups
without blocks are left out.
-/

namespace Wireframe

/-- How the members of a group are laid out. -/
structure Flow where
  /-- How many stand side by side, at least one. -/
  count : Nat
  axis : Axis
  deriving DecidableEq, Repr

namespace Flow

/-- The axis across that of the flow. -/
def crossAxis (f : Flow) : Axis :=
  f.axis.cross

/-- A single column. -/
def column : Flow := ⟨1, .column⟩

/-- The flow that a direction, or none, asks for. -/
def ofDirection : Option Direction → Flow
  | none => column
  | some d => ⟨(d.count.map fun c => max 1 c.value).getD 1, d.axis⟩

end Flow

/-- Blocks that are laid out together. -/
structure Arrangement where
  flow : Flow
  blocks : List Block
  deriving DecidableEq, Repr

namespace ElementGroup

/-- How the elements of a group are laid out. -/
def flow (g : ElementGroup) : Flow :=
  .ofDirection g.direction

end ElementGroup

namespace BlockGroup

/-- How the blocks of a group are laid out. -/
def flow (g : BlockGroup) : Flow :=
  .ofDirection (g.alignment.map Alignment.direction)

/-- The blocks of a group as they are declared, without regard to names. -/
def arrangement (g : BlockGroup) : Arrangement :=
  ⟨g.flow, g.blocks⟩

/-- The titles that the alignment of a group names. -/
def names (g : BlockGroup) : List String :=
  g.alignment.toList.flatMap Alignment.titles

end BlockGroup

/-- The blocks that some names claim, by their places on the page, when those in `claimed` already
    are; and all that are claimed then. -/
def claim (titles : List (Option String)) : List Nat → List String → List Nat × List Nat
  | claimed, [] => ([], claimed)
  | claimed, name :: rest =>
    match titles.findIdx? (· = some name) with
    | some i =>
      if claimed.contains i then claim titles claimed rest
      else
        let (more, all) := claim titles (i :: claimed) rest
        (i :: more, all)
    | none => claim titles claimed rest

/-- What each group in a row claims, and all that is claimed in the end. -/
def claims (titles : List (Option String)) :
    List Nat → List BlockGroup → List (List Nat) × List Nat
  | claimed, [] => ([], claimed)
  | claimed, g :: rest =>
    let (own, claimed) := claim titles claimed g.names
    let (more, all) := claims titles claimed rest
    (own :: more, all)

/-- The places of the blocks of each group in a row: those it claims, then those of its own that no
    group has claimed. The first block of the row is at the place `first`. -/
def members (claimed : List Nat) : Nat → List (BlockGroup × List Nat) → List (Flow × List Nat)
  | _, [] => []
  | first, (g, own) :: rest =>
    let next := first + g.blocks.length
    let stay := (List.range' first g.blocks.length).filter (!claimed.contains ·)
    (g.flow, own ++ stay) :: members claimed next rest

namespace Page

/-- The titles of the blocks of a page, in the order of the source. -/
def blockTitles (p : Page) : List (Option String) :=
  p.blocks.map Block.titleText?

/-- The arrangements of a page, by the places of their blocks. -/
def placements (p : Page) : List (Flow × List Nat) :=
  let (own, claimed) := claims p.blockTitles [] p.groups
  (members claimed 0 (p.groups.zip own)).filter (!·.2.isEmpty)

/-- The arrangements of a page. -/
def arrangements (p : Page) : List Arrangement :=
  p.placements.map fun (flow, places) => ⟨flow, places.filterMap (p.blocks[·]?)⟩

/-- The width in pixels of a page for a device. -/
def width? (p : Page) : Option Nat :=
  p.device?.map fun
    | .mobile => 320
    | .tablet => 640
    | .widescreen => 960

end Page

namespace Scene

/-- The width in pixels of the widest page. -/
def width? (s : Scene) : Option Nat :=
  (s.pages.filterMap Page.width?).max?

end Scene

end Wireframe
