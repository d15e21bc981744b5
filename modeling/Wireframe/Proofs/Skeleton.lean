import Wireframe.Proofs.Row

/-!
# The skeleton of a scene

What is left of a scene when its groups are forgotten: the first lines of its pages, on each page
those of its blocks, and in each block its items, those of lists among them. The rows of a scene
alone tell its skeleton, whichever way the scene groups them (`Scene.Reads.skeleton_eq`).
-/

namespace Wireframe

/-- The first line of a block, and its items. -/
structure BlockSkeleton where
  keyword : Token
  title : Option Value
  lineEnd : Token
  items : List Item
  deriving DecidableEq

/-- The first line of a page, and its blocks. -/
structure PageSkeleton where
  device : Option DeviceTag
  keyword : Token
  title : Value
  lineEnd : Token
  blocks : List BlockSkeleton
  deriving DecidableEq

namespace Element

/-- The item that an entry is, or those of the list that it is. -/
def allItems : Element → List Item
  | item i => [i]
  | list l => l.items

end Element

namespace Block

/-- The items of a block, those of its lists in their places. -/
def allItems (b : Block) : List Item :=
  b.groups.flatMap fun g => g.entries.flatMap Element.allItems

/-- The skeleton of a block. -/
def skeleton (b : Block) : BlockSkeleton :=
  ⟨b.keyword, b.title, b.lineEnd, b.allItems⟩

end Block

namespace Page

/-- The skeleton of a page. -/
def skeleton (p : Page) : PageSkeleton :=
  ⟨p.device, p.keyword, p.title, p.lineEnd, p.blocks.map Block.skeleton⟩

end Page

namespace Scene

/-- The skeleton of a scene. -/
def skeleton (s : Scene) : List PageSkeleton :=
  s.pages.map Page.skeleton

end Scene

/-! ## The skeleton of rows -/

/-- What the rows from a place on hold: the items of a block that has begun before, the blocks of a
    page that has begun before, and pages. -/
structure Pending where
  items : List Item
  blocks : List BlockSkeleton
  pages : List PageSkeleton

namespace Row

/-- A row before others. -/
def collect : Row → Pending → Pending
  | item i, rest => { rest with items := i :: rest.items }
  | block keyword title lineEnd, rest =>
    ⟨[], ⟨keyword, title, lineEnd, rest.items⟩ :: rest.blocks, rest.pages⟩
  | page device keyword title lineEnd, rest =>
    ⟨[], [], ⟨device, keyword, title, lineEnd, rest.blocks⟩ :: rest.pages⟩
  | _, rest => rest

/-- What some rows hold, and what follows them. -/
def collectAll (rows : List Row) (rest : Pending) : Pending :=
  rows.foldr collect rest

theorem collectAll_append (rows rows' : List Row) (rest : Pending) :
    collectAll (rows ++ rows') rest = collectAll rows (collectAll rows' rest) :=
  List.foldr_append

end Row

section Collect

variable {greedy : Prop} {rows : List Row} {α β : Type} {P F : α → List Row → Prop}
  {f : α → List β} {p : List β → Pending}

/-- Members of which each adds something in front. -/
theorem RowsOf.collectAll_eq {xs : List α} (h : RowsOf P F xs rows)
    (hP : ∀ x r, P x r → ∀ more, Row.collectAll r (p more) = p (f x ++ more))
    (more : List β) : Row.collectAll rows (p more) = p (xs.flatMap f ++ more) := by
  induction h with
  | nil => rfl
  | cons hx _ _ ih =>
    rw [Row.collectAll_append, ih, hP _ _ hx, List.flatMap_cons, List.append_assoc]

/-- Lines of which each that is not blank adds something in front. -/
theorem RowsOfLines.collectAll_eq {members : List α} {blanks : List Token}
    (h : RowsOfLines P F members blanks rows)
    (hP : ∀ x r, P x r → ∀ more, Row.collectAll r (p more) = p (f x ++ more))
    (more : List β) : Row.collectAll rows (p more) = p (members.flatMap f ++ more) := by
  refine h.induction (motive := fun members _ rows =>
    Row.collectAll rows (p more) = p (members.flatMap f ++ more)) rfl ?_ ?_
  · exact fun t members blanks rows _ ih => ih
  · intro x r members blanks rows hx _ _ ih
    rw [Row.collectAll_append, ih, hP x r hx, List.flatMap_cons, List.append_assoc]

variable {items : List Item} {blocks : List BlockSkeleton} {pages : List PageSkeleton}

theorem Element.collectAll_rows (e : Element) :
    Row.collectAll e.rows ⟨items, blocks, pages⟩ = ⟨e.allItems ++ items, blocks, pages⟩ := by
  cases e with
  | item i => rfl
  | list l =>
    have h : ∀ is : List Item, Row.collectAll (is.map .item) ⟨items, blocks, pages⟩ =
        ⟨is ++ items, blocks, pages⟩ := by
      intro is
      induction is with
      | nil => rfl
      | cons i is ih =>
        rw [List.map_cons, Row.collectAll, List.foldr_cons, ← Row.collectAll, ih]
        rfl
    exact h l.items

theorem ElementGroup.Reads.collectAll_eq {g : ElementGroup} (h : g.Reads greedy rows) :
    Row.collectAll rows ⟨items, blocks, pages⟩ =
      ⟨g.entries.flatMap Element.allItems ++ items, blocks, pages⟩ := by
  obtain ⟨rest, h, rfl⟩ := h
  have hrest := h.collectAll_eq (p := fun items => ⟨items, blocks, pages⟩)
    (fun e r he more => he ▸ e.collectAll_rows) items
  rw [Row.collectAll_append, hrest]
  cases g.direction <;> rfl

theorem Block.Reads.collectAll_eq {b : Block} (h : b.Reads greedy rows) :
    Row.collectAll rows ⟨[], blocks, pages⟩ = ⟨[], [b.skeleton] ++ blocks, pages⟩ := by
  obtain ⟨rest, h, rfl⟩ := h
  have hrest := RowsOf.collectAll_eq (p := fun items => ⟨items, blocks, pages⟩) h
    (fun g r hg more => hg.1.collectAll_eq) []
  rw [Row.collectAll, List.foldr_cons, ← Row.collectAll, hrest, List.append_nil]
  rfl

theorem BlockGroup.Reads.collectAll_eq {g : BlockGroup} (h : g.Reads greedy rows) :
    Row.collectAll rows ⟨[], blocks, pages⟩ =
      ⟨[], g.blocks.map Block.skeleton ++ blocks, pages⟩ := by
  obtain ⟨rest, h, rfl⟩ := h
  have hrest := h.collectAll_eq (p := fun blocks => ⟨[], blocks, pages⟩)
    (fun b r hb more => hb.collectAll_eq) blocks
  rw [← List.map_eq_flatMap] at hrest
  rw [Row.collectAll_append, hrest]
  cases g.alignment <;> rfl

theorem Page.Reads.collectAll_eq {p : Page} (h : p.Reads greedy rows) :
    Row.collectAll rows ⟨[], [], pages⟩ = ⟨[], [], [p.skeleton] ++ pages⟩ := by
  obtain ⟨rest, h, rfl⟩ := h
  have hrest := RowsOf.collectAll_eq (p := fun blocks => ⟨[], blocks, pages⟩) h
    (fun g r hg more => hg.1.collectAll_eq) []
  rw [Row.collectAll, List.foldr_cons, ← Row.collectAll, hrest, List.append_nil,
    ← List.map_flatMap]
  rfl

theorem Scene.Reads.collectAll_eq {s : Scene} (h : s.Reads greedy rows) :
    Row.collectAll rows ⟨[], [], []⟩ = ⟨[], [], s.skeleton⟩ := by
  have hrows := RowsOfLines.collectAll_eq (p := fun pages => ⟨[], [], pages⟩) h
    (fun p r hp more => hp.collectAll_eq) []
  rw [hrows, List.append_nil, skeleton, List.map_eq_flatMap]

/-- Scenes that group the same rows have the same skeleton. -/
theorem Scene.Reads.skeleton_eq {greedy' : Prop} {s s' : Scene} (h : s.Reads greedy rows)
    (h' : s'.Reads greedy' rows) : s.skeleton = s'.skeleton :=
  congrArg Pending.pages (h.collectAll_eq.symm.trans h'.collectAll_eq)

end Collect

end Wireframe
