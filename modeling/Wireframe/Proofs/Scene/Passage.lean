import Mathlib.Data.List.Basic
import Wireframe.Proofs.Scene.Laid

/-!
# Passages

The printer prints the rows of a layout in *passages*: the rows that a node is shown by, after the
comments that stand above the node in the source. Only an item after a list is shown by two rows, a
blank line and its own. A group with nothing to show is one blank line, before which no comment is
printed.

The passages of a scene have just the rows of its layout (`Scene.rows_passages`).
-/

namespace Wireframe

/-- Rows that are printed together. -/
structure Passage where
  /-- How far the comments before it are indented. -/
  level : Nat
  /-- The comments above this line of the source come before it. -/
  line : Nat
  rows : List LaidRow

namespace Passage

/-- The passage of a node. -/
def ofNode (level : Nat) (n : Node) (rows : List LaidRow) : Passage :=
  ⟨level, n.range.start.line, rows⟩

/-- A blank line for a group that has nothing to show. -/
def blank : Passage :=
  ⟨0, 0, [⟨0, .blank .newline⟩]⟩

/-- The lines that show a passage. -/
def texts (p : Passage) : List String :=
  p.rows.flatMap LaidRow.texts

end Passage

namespace Item

/-- The passage of an item, which is kept apart from a list that it comes right after. -/
def passage (level : Nat) (afterList : Bool) (i : Item) : Passage :=
  .ofNode level (.item i)
    ((if afterList then [⟨0, .blank .newline⟩] else []) ++ [⟨level, .item i⟩])

end Item

namespace ItemList

/-- The passages of a list. -/
def passages (level : Nat) (l : ItemList) : List Passage :=
  .ofNode level (.list l) [⟨level, l.headRow⟩] :: l.items.map (Item.passage (level + l.depth) false)

end ItemList

namespace ElementGroup

/-- The passages of some entries. -/
def passagesOf (level : Nat) (afterList : Bool) : List Element → List Passage
  | [] => []
  | .item i :: entries => i.passage level afterList :: passagesOf level false entries
  | .list l :: entries => l.passages level ++ passagesOf level true entries

/-- The passages of a group of elements. -/
def passages (level : Nat) (g : ElementGroup) : List Passage :=
  if g.direction.isNone && g.entries.isEmpty then [.blank]
  else g.direction.toList.map (fun d => .ofNode level (.direction d) [⟨level, .direction d⟩]) ++
    passagesOf level false g.entries

end ElementGroup

namespace Block

/-- The passages of a block. -/
def passages (b : Block) : List Passage :=
  .ofNode 0 (.block b) [⟨0, b.headRow⟩] :: b.groups.flatMap (ElementGroup.passages 1)

end Block

namespace BlockGroup

/-- The passages of a group of blocks. -/
def passages (g : BlockGroup) : List Passage :=
  if g.alignment.isNone && g.blocks.isEmpty then [.blank]
  else g.alignment.toList.map (fun a => .ofNode 0 (.alignment a) [⟨0, .alignment a⟩]) ++
    g.blocks.flatMap Block.passages

end BlockGroup

namespace Page

/-- The passage of the first line of a page. -/
def headPassage (p : Page) : Passage :=
  .ofNode 0 (.page p) [⟨0, p.headRow⟩]

/-- The passages of a page. -/
def passages (p : Page) : List Passage :=
  p.headPassage :: p.groups.flatMap BlockGroup.passages

end Page

namespace Scene

/-- The passages of a scene. -/
def passages (s : Scene) : List Passage :=
  s.pages.flatMap Page.passages

end Scene

/-! ## The rows of passages -/

theorem flatMap_rows {α : Type} {f : α → List Passage} {laid : α → List LaidRow}
    (h : ∀ x, (f x).flatMap Passage.rows = laid x) (xs : List α) :
    (xs.flatMap f).flatMap Passage.rows = xs.flatMap laid := by
  rw [List.flatMap_assoc]
  exact List.flatMap_congr fun x _ => h x

theorem ItemList.rows_passages (level : Nat) (l : ItemList) :
    (l.passages level).flatMap Passage.rows = l.laid level := by
  rw [passages, List.flatMap_cons, List.flatMap_map]
  exact congrArg (_ :: ·) List.map_eq_flatMap.symm

theorem ElementGroup.rows_passagesOf (level : Nat) (afterList : Bool) (entries : List Element) :
    (passagesOf level afterList entries).flatMap Passage.rows =
      (linesOf afterList entries).flatMap (Line.laid (Element.laid level)) := by
  induction entries generalizing afterList with
  | nil => rfl
  | cons e entries ih =>
    cases e with
    | item i =>
      rw [passagesOf, List.flatMap_cons, ih]
      cases afterList <;> rfl
    | list l =>
      rw [passagesOf, List.flatMap_append, ih, l.rows_passages]
      rfl

theorem ElementGroup.rows_passages (level : Nat) (g : ElementGroup) :
    (g.passages level).flatMap Passage.rows = g.laid level := by
  obtain ⟨_ | d, entries, lineEnds⟩ := g
  · cases entries with
    | nil => rfl
    | cons e entries => exact rows_passagesOf level false (e :: entries)
  · exact congrArg (_ :: ·) (rows_passagesOf level false entries)

theorem Block.rows_passages (b : Block) : b.passages.flatMap Passage.rows = b.laid :=
  congrArg (_ :: ·) (flatMap_rows (ElementGroup.rows_passages 1) b.groups)

theorem BlockGroup.rows_passages (g : BlockGroup) : g.passages.flatMap Passage.rows = g.laid := by
  have hblocks (blocks : List Block) : (blocks.flatMap Block.passages).flatMap Passage.rows =
      (blocks.map Line.content).flatMap (Line.laid Block.laid) := by
    rw [flatMap_rows Block.rows_passages, List.flatMap_map]
    rfl
  obtain ⟨_ | a, blocks, lineEnds⟩ := g
  · cases blocks with
    | nil => rfl
    | cons b blocks => exact hblocks (b :: blocks)
  · exact congrArg (_ :: ·) (hblocks blocks)

theorem Page.rows_passages (p : Page) : p.passages.flatMap Passage.rows = p.laid :=
  congrArg (_ :: ·) (flatMap_rows BlockGroup.rows_passages p.groups)

/-- The rows of a layout, passage by passage. -/
theorem Scene.rows_passages (s : Scene) : s.passages.flatMap Passage.rows = s.laid :=
  flatMap_rows Page.rows_passages s.pages

theorem Scene.texts_passages (s : Scene) :
    s.passages.flatMap Passage.texts = s.laid.flatMap LaidRow.texts := by
  rw [← s.rows_passages, List.flatMap_assoc]
  rfl

end Wireframe
