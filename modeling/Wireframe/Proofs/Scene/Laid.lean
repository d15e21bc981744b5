import Wireframe.Proofs.Grouping
import Wireframe.Scene.Layout

/-!
# The rows of a layout

A layout drops the blank lines of a scene but for those that mean something. What is left are rows
again (`Scene.laid`), and they have the same grouping: a scene whose own blank lines are just these
(`Scene.relined`) reads them, and greedily, so it is what a parse makes of them.

For this every group but the first one of a block must begin with a direction, and every group but
the first one of a page with an alignment. That is so in each greedy reading
(`Scene.Reads.isGrouped`).
-/

namespace Wireframe

namespace Token

/-- A line end that a layout makes. -/
def newline : Token := ⟨.lineEnd, "\n", .origin⟩

end Token

/-- A row of a layout, and how far it is indented. -/
structure LaidRow where
  level : Nat
  row : Row

namespace Row

/-- The lines of a layout that show a row. -/
def texts (level : Nat) : Row → List String
  | blank _ => [""]
  | page d k t e => [Printer.indentation level ++ (Page.mk d k t e []).line]
  | alignment a => [Printer.indentation level ++ a.line]
  | block k t e => [Printer.indentation level ++ (Block.mk k t e []).line]
  | direction d => [Printer.indentation level ++ d.line]
  | list k t h c e =>
    let parts := (ItemList.mk k t h c e []).titleParts
    if h.isSome then
      [Printer.indentation level ++ joinParts parts, Printer.indentation (level + 1) ++ c.squeezed]
    else [Printer.indentation level ++ joinParts (parts ++ [c.squeezed])]
  | item i => [Printer.indentation level ++ i.line]

end Row

namespace LaidRow

/-- The lines of a layout that show a row. -/
def texts (r : LaidRow) : List String :=
  r.row.texts r.level

end LaidRow

/-! ## The rows of each part -/

/-- The rows of a line, given those of what begins on it. -/
def Line.laid {α : Type} (f : α → List LaidRow) : Line α → List LaidRow
  | blank t => [⟨0, .blank t⟩]
  | content x => f x

namespace ItemList

/-- How far the items of a list are indented. -/
def depth (l : ItemList) : Nat :=
  if l.headerEnd.isSome then 2 else 1

/-- The rows of a list in a layout. -/
def laid (level : Nat) (l : ItemList) : List LaidRow :=
  ⟨level, l.headRow⟩ :: l.items.map fun i => ⟨level + l.depth, .item i⟩

end ItemList

namespace Element

/-- The rows of an entry in a layout. -/
def laid (level : Nat) : Element → List LaidRow
  | item i => [⟨level, .item i⟩]
  | list l => l.laid level

end Element

namespace ElementGroup

/-- The lines of some entries: an item that comes right after a list must be kept apart from it. -/
def linesOf (afterList : Bool) : List Element → List (Line Element)
  | [] => []
  | .item i :: entries =>
    (if afterList then [.blank .newline] else []) ++ .content (.item i) :: linesOf false entries
  | .list l :: entries => .content (.list l) :: linesOf true entries

/-- The lines of a group in a layout; one of nothing but blank lines keeps one of them. -/
def lines (g : ElementGroup) : List (Line Element) :=
  if g.direction.isNone && g.entries.isEmpty then [.blank .newline] else linesOf false g.entries

/-- The rows of a group of elements in a layout. -/
def laid (level : Nat) (g : ElementGroup) : List LaidRow :=
  g.direction.toList.map (⟨level, .direction ·⟩) ++ g.lines.flatMap (Line.laid (Element.laid level))

/-- A group of elements with the blank lines of its layout. -/
def relined (g : ElementGroup) : ElementGroup :=
  { g with lineEnds := g.lines.filterMap Line.blank? }

end ElementGroup

namespace Block

/-- The rows of a block in a layout. -/
def laid (b : Block) : List LaidRow :=
  ⟨0, b.headRow⟩ :: b.groups.flatMap (ElementGroup.laid 1)

/-- A block with the blank lines of its layout. -/
def relined (b : Block) : Block :=
  { b with groups := b.groups.map ElementGroup.relined }

end Block

namespace BlockGroup

/-- The lines of a group in a layout; one of nothing but blank lines keeps one of them. -/
def lines (g : BlockGroup) : List (Line Block) :=
  if g.alignment.isNone && g.blocks.isEmpty then [.blank .newline] else g.blocks.map .content

/-- The rows of a group of blocks in a layout. -/
def laid (g : BlockGroup) : List LaidRow :=
  g.alignment.toList.map (⟨0, .alignment ·⟩) ++ g.lines.flatMap (Line.laid Block.laid)

/-- A group of blocks with the blank lines of its layout. -/
def relined (g : BlockGroup) : BlockGroup :=
  ⟨g.alignment, g.blocks.map Block.relined, g.lines.filterMap Line.blank?⟩

end BlockGroup

namespace Page

/-- The rows of a page in a layout. -/
def laid (p : Page) : List LaidRow :=
  ⟨0, p.headRow⟩ :: p.groups.flatMap BlockGroup.laid

/-- A page with the blank lines of its layout. -/
def relined (p : Page) : Page :=
  { p with groups := p.groups.map BlockGroup.relined }

end Page

namespace Scene

/-- The rows of a scene in a layout. -/
def laid (s : Scene) : List LaidRow :=
  s.pages.flatMap Page.laid

/-- A scene with the blank lines of its layout. -/
def relined (s : Scene) : Scene :=
  { s with pages := s.pages.map Page.relined, lineEnds := [] }

end Scene

/-- The rows of a layout, without their levels. -/
def rowsOf (laid : List LaidRow) : List Row :=
  laid.map LaidRow.row

@[simp] theorem rowsOf_cons (r : LaidRow) (laid : List LaidRow) :
    rowsOf (r :: laid) = r.row :: rowsOf laid := rfl

@[simp] theorem rowsOf_append (laid laid' : List LaidRow) :
    rowsOf (laid ++ laid') = rowsOf laid ++ rowsOf laid' :=
  List.map_append

theorem rowsOf_map {α : Type} (level : Nat) (f : α → Row) (xs : List α) :
    rowsOf (xs.map fun x => ⟨level, f x⟩) = xs.map f := by
  simp [rowsOf, Function.comp_def]

theorem rowsOf_flatMap {α : Type} (f : α → List LaidRow) (xs : List α) :
    rowsOf (xs.flatMap f) = xs.flatMap fun x => rowsOf (f x) :=
  List.map_flatMap ..

theorem Element.rowsOf_laid (level : Nat) (e : Element) : rowsOf (e.laid level) = e.rows := by
  cases e with
  | item i => rfl
  | list l => exact congrArg (l.headRow :: ·) (rowsOf_map _ _ _)

namespace ElementGroup

theorem content?_linesOf (afterList : Bool) (entries : List Element) :
    (linesOf afterList entries).filterMap Line.content? = entries := by
  induction entries generalizing afterList with
  | nil => rfl
  | cons e entries ih =>
    cases e with
    | item i => cases afterList <;> exact congrArg (.item i :: ·) (ih false)
    | list l => exact congrArg (.list l :: ·) (ih true)

theorem content?_lines (g : ElementGroup) : g.lines.filterMap Line.content? = g.entries := by
  rw [lines]
  split
  · next h =>
    rw [Bool.and_eq_true, List.isEmpty_iff] at h
    exact h.2.symm
  · exact content?_linesOf false g.entries

theorem eq_newline_of_mem_linesOf {afterList : Bool} {entries : List Element} {t : Token}
    (h : .blank t ∈ linesOf afterList entries) : t = .newline := by
  induction entries generalizing afterList with
  | nil => exact absurd h List.not_mem_nil
  | cons e entries ih =>
    cases e with
    | list l => exact ih (by simpa [linesOf] using h)
    | item i =>
      rcases List.mem_append.1 h with h | h
      · cases afterList with
        | false => exact absurd h List.not_mem_nil
        | true => exact Line.blank.inj (List.mem_singleton.1 h)
      · exact ih (by simpa using h)

theorem eq_newline_of_mem_lines {g : ElementGroup} {t : Token} (h : .blank t ∈ g.lines) :
    t = .newline := by
  rw [lines] at h
  split at h
  · exact Line.blank.inj (List.mem_singleton.1 h)
  · exact eq_newline_of_mem_linesOf h

end ElementGroup

namespace BlockGroup

theorem content?_lines (g : BlockGroup) : g.lines.filterMap Line.content? = g.blocks := by
  rw [lines]
  split
  · next h =>
    rw [Bool.and_eq_true, List.isEmpty_iff] at h
    exact h.2.symm
  · simp [List.filterMap_map, Function.comp_def, Line.content?]

theorem eq_newline_of_mem_lines {g : BlockGroup} {t : Token} (h : .blank t ∈ g.lines) :
    t = .newline := by
  rw [lines] at h
  split at h
  · exact Line.blank.inj (List.mem_singleton.1 h)
  · simp at h

end BlockGroup

/-! ## Greedy readings -/

section Grouped

variable {rows : List Row}

/-- Only the first group can lack a direction. -/
def Block.IsGrouped (b : Block) : Prop :=
  ∀ g ∈ b.groups.tail, g.direction.isSome = true

/-- Only the first group can lack an alignment. -/
structure Page.IsGrouped (p : Page) : Prop where
  groups : ∀ g ∈ p.groups.tail, g.alignment.isSome = true
  blocks : ∀ g ∈ p.groups, ∀ b ∈ g.blocks, b.IsGrouped

/-- All but the first of some members begin with a row that they are told by. -/
theorem RowsOf.forall_tail {α : Type} {P : α → List Row → Prop} {p : Row → Bool} {q : α → Prop}
    {xs : List α} (h : RowsOf P (fun _ rows => True → ∀ r ∈ rows.head?, p r = true) xs rows)
    (hP : ∀ x r, P x r → r ≠ [] ∧ ((∀ row ∈ r.head?, p row = true) → q x)) :
    ∀ x ∈ xs.tail, q x := by
  induction h with
  | nil => exact fun _ h => absurd h List.not_mem_nil
  | cons _ hF hrest ih =>
    cases hrest with
    | nil => exact fun _ h => absurd h List.not_mem_nil
    | @cons y r ys rows hy hF' hrest =>
      refine List.forall_mem_cons.2 ⟨(hP _ _ hy).2 fun row hrow => hF trivial row ?_, ih⟩
      obtain ⟨first, more, rfl⟩ := List.exists_cons_of_ne_nil (hP _ _ hy).1
      exact hrow

theorem ElementGroup.Reads.isSome_direction {g : ElementGroup} {greedy : Prop}
    (h : g.Reads greedy rows) (hne : rows ≠ []) (hhead : ∀ r ∈ rows.head?, r.isDirection = true) :
    g.direction.isSome = true := by
  obtain ⟨rest, h, rfl⟩ := h
  -- without a direction the first row is that of an entry or blank
  cases hd : g.direction with
  | some d => rfl
  | none =>
    rw [hd] at hne hhead
    obtain ⟨r, rest, rfl⟩ := List.exists_cons_of_ne_nil hne
    have hentry : r.isEntry = true := h.forall_mem (p := fun r => r.isEntry = true) (fun _ => rfl)
      (fun e r he row hrow => e.rows_isEntry row (he ▸ hrow)) r List.mem_cons_self
    have hdirection := hhead r rfl
    cases r <;> first | exact Bool.noConfusion hentry | exact Bool.noConfusion hdirection

theorem Block.Reads.isGrouped {b : Block} (h : b.Reads True rows) : b.IsGrouped := by
  obtain ⟨rest, h, rfl⟩ := h
  exact RowsOf.forall_tail h fun g r hg => ⟨hg.2, hg.1.isSome_direction hg.2⟩

/-- No row of a block is an alignment. -/
theorem Block.Reads.isAlignment {b : Block} {greedy : Prop} (h : b.Reads greedy rows) :
    ∀ r ∈ rows, r.isAlignment = false := by
  obtain ⟨rest, h, rfl⟩ := h
  refine List.forall_mem_cons.2 ⟨rfl, fun r hr => ?_⟩
  have hbody : r.isBody = true := RowsOf.forall_mem h (fun _ _ hg => hg.1.isBody) r hr
  cases r <;> first | rfl | exact Bool.noConfusion hbody

theorem BlockGroup.Reads.isSome_alignment {g : BlockGroup} {greedy : Prop} (h : g.Reads greedy rows)
    (hne : rows ≠ []) (hhead : ∀ r ∈ rows.head?, r.isAlignment = true) :
    g.alignment.isSome = true := by
  obtain ⟨rest, h, rfl⟩ := h
  cases ha : g.alignment with
  | some a => rfl
  | none =>
    rw [ha] at hne hhead
    obtain ⟨r, rest, rfl⟩ := List.exists_cons_of_ne_nil hne
    have hnot := h.forall_mem (p := fun r => r.isAlignment = false) (fun _ => rfl)
      (fun _ _ hb => hb.isAlignment) r List.mem_cons_self
    exact absurd (hhead r rfl) (by rw [hnot]; decide)

theorem Page.Reads.isGrouped {p : Page} (h : p.Reads True rows) : p.IsGrouped := by
  obtain ⟨rest, h, rfl⟩ := h
  refine ⟨RowsOf.forall_tail h fun g r hg => ⟨hg.2, hg.1.isSome_alignment hg.2⟩, ?_⟩
  refine RowsOf.forall_member (q := fun _ => True) h (fun _ _ => trivial) fun g r hg _ => ?_
  obtain ⟨rest, hrest, -⟩ := hg.1
  exact hrest.forall_member (q := fun _ => True) (fun _ _ => trivial) fun b r hb _ => hb.isGrouped

/-- In a greedy reading groups begin where they must. -/
theorem Scene.Reads.isGrouped {s : Scene} (h : s.Reads True rows) : ∀ p ∈ s.pages, p.IsGrouped :=
  RowsOfLines.forall_member (q := fun _ => True) h (fun _ _ => trivial) fun _ _ hp _ => hp.isGrouped

/-! ## A layout is read greedily -/

/-- The lines of some entries read their rows: no item follows a list. -/
theorem ElementGroup.reads_linesOf (level : Nat) (afterList : Bool) (entries : List Element) :
    RowsOf (Line.Reads fun e r => r = Element.rows e) (Line.Allows (Element.Allows True))
        (linesOf afterList entries)
        (rowsOf ((linesOf afterList entries).flatMap (Line.laid (Element.laid level)))) ∧
      (afterList = true → ∀ r ∈ (rowsOf
        ((linesOf afterList entries).flatMap (Line.laid (Element.laid level)))).head?,
          r.isItem = false) := by
  induction entries generalizing afterList with
  | nil => exact ⟨.nil, fun _ _ h => absurd h (Option.not_mem_none _)⟩
  | cons e entries ih =>
    have hcontent : rowsOf (Line.laid (Element.laid level) (.content e)) = e.rows :=
      e.rowsOf_laid level
    cases e with
    | item i =>
      have hitem := (ih false).1
      -- after a list a blank line comes first, which is no item and so ends the list
      cases afterList with
      | false =>
        rw [linesOf, if_neg (by decide), List.nil_append, List.flatMap_cons,
          rowsOf_append, hcontent]
        exact ⟨.cons rfl trivial hitem, nofun⟩
      | true =>
        rw [linesOf, if_pos rfl, List.singleton_append, List.flatMap_cons, List.flatMap_cons,
          rowsOf_append, rowsOf_append, hcontent]
        exact ⟨.cons rfl trivial (.cons rfl trivial hitem), fun _ r hr => Option.some.inj hr ▸ rfl⟩
    | list l =>
      obtain ⟨hrest, hhead⟩ := ih true
      rw [linesOf, List.flatMap_cons, rowsOf_append, hcontent]
      exact ⟨.cons rfl (fun _ => hhead rfl) hrest, fun _ r hr => Option.some.inj hr ▸ rfl⟩

theorem ElementGroup.rowsOf_laid_ne_nil (level : Nat) (g : ElementGroup) :
    rowsOf (g.laid level) ≠ [] := by
  obtain ⟨_ | d, entries, lineEnds⟩ := g
  · cases entries with
    | nil => exact List.cons_ne_nil _ _
    | cons e entries =>
      cases e <;> simp [laid, lines, linesOf, Line.laid, Element.laid, ItemList.laid]
  · exact List.cons_ne_nil _ _

theorem ElementGroup.reads_laid (level : Nat) (g : ElementGroup) :
    g.relined.Reads True (rowsOf (g.laid level)) := by
  refine ⟨rowsOf (g.lines.flatMap (Line.laid (Element.laid level))),
    ⟨g.lines, g.content?_lines, rfl, ?_⟩, by rw [laid, rowsOf_append, rowsOf_map]; rfl⟩
  -- a group of nothing but blank lines has one of them left, so it does not vanish
  rw [lines]
  split
  · exact .cons (r := [.blank .newline]) rfl trivial .nil
  · exact (reads_linesOf level false g.entries).1

/-- Members of which all but the first are told by the row they begin with. -/
theorem RowsOf.of_laid {α β : Type} {P : β → List Row → Prop} {p : Row → Bool}
    {f : α → List LaidRow} {g : α → β} {xs : List α} (hP : ∀ x ∈ xs, P (g x) (rowsOf (f x)))
    (hp : ∀ x ∈ xs.tail, ∃ r more, f x = r :: more ∧ p r.row = true) :
    RowsOf P (fun _ rows => True → ∀ r ∈ rows.head?, p r = true) (xs.map g)
      (rowsOf (xs.flatMap f)) := by
  induction xs with
  | nil => exact .nil
  | cons x xs ih =>
    rw [List.map_cons, List.flatMap_cons, rowsOf_append]
    refine .cons (hP x List.mem_cons_self) (fun _ => ?_)
      (ih (fun y hy => hP y (List.mem_cons_of_mem _ hy)) fun y hy => hp y (List.mem_of_mem_tail hy))
    cases xs with
    | nil => exact fun _ h => absurd h (Option.not_mem_none _)
    | cons y ys =>
      obtain ⟨r, more, hy, hr⟩ := hp y List.mem_cons_self
      rw [List.flatMap_cons, hy]
      exact fun r' hr' => Option.some.inj hr' ▸ hr

/-- Lines of which none is blank. -/
theorem RowsOfLines.of_laid {α : Type} {P : α → List Row → Prop} {p : Row → Bool}
    {f : α → List LaidRow} {g : α → α} {xs : List α} (hP : ∀ x ∈ xs, P (g x) (rowsOf (f x)))
    (hp : ∀ x ∈ xs, ∃ r more, f x = r :: more ∧ p r.row = true) :
    RowsOfLines P (fun _ rows => True → ∀ r ∈ rows.head?, p r = true) (xs.map g) []
      (rowsOf (xs.flatMap f)) := by
  refine ⟨xs.map fun x => .content (g x), ?_, ?_, ?_⟩
  · simp [List.filterMap_map, Function.comp_def, Line.content?]
  · simp [List.filterMap_map, Function.comp_def, Line.blank?]
  · refine RowsOf.mono (fun _ _ h => h) (fun line rows h => ?_)
      (RowsOf.of_laid (P := Line.Reads P) (p := p) hP fun x hx => hp x (List.mem_of_mem_tail hx))
    cases line with
    | blank t => trivial
    | content x => exact h

theorem Block.reads_laid {b : Block} (h : b.IsGrouped) : b.relined.Reads True (rowsOf b.laid) := by
  refine ⟨_, RowsOf.of_laid (fun g _ => ⟨g.reads_laid 1, g.rowsOf_laid_ne_nil 1⟩)
    fun g hg => ?_, rfl⟩
  obtain ⟨d, hd⟩ := Option.isSome_iff_exists.1 (h g hg)
  exact ⟨⟨1, .direction d⟩, _, by rw [ElementGroup.laid, hd]; rfl, rfl⟩

theorem BlockGroup.rowsOf_laid_ne_nil (g : BlockGroup) : rowsOf g.laid ≠ [] := by
  obtain ⟨_ | a, blocks, lineEnds⟩ := g
  · cases blocks <;> exact List.cons_ne_nil _ _
  · exact List.cons_ne_nil _ _

theorem BlockGroup.reads_laid {g : BlockGroup} (h : ∀ b ∈ g.blocks, b.IsGrouped) :
    g.relined.Reads True (rowsOf g.laid) := by
  refine ⟨rowsOf (g.lines.flatMap (Line.laid Block.laid)), ?_, by
    rw [laid, rowsOf_append, rowsOf_map]; rfl⟩
  rw [relined, lines]
  split
  · next hempty =>
    rw [Bool.and_eq_true, List.isEmpty_iff] at hempty
    rw [hempty.2]
    exact RowsOfLines.nil.blank .newline
  · have hblanks : (g.blocks.map Line.content).filterMap Line.blank? = [] := by
      simp [List.filterMap_map, Line.blank?]
    rw [hblanks, List.flatMap_map]
    exact RowsOfLines.of_laid (p := Row.isBlock) (fun b hb => Block.reads_laid (h b hb))
      fun b _ => ⟨⟨0, b.headRow⟩, _, rfl, rfl⟩

theorem Page.reads_laid {p : Page} (h : p.IsGrouped) : p.relined.Reads True (rowsOf p.laid) := by
  refine ⟨_, RowsOf.of_laid
    (fun g hg => ⟨BlockGroup.reads_laid (h.blocks g hg), g.rowsOf_laid_ne_nil⟩)
    fun g hg => ?_, rfl⟩
  obtain ⟨a, ha⟩ := Option.isSome_iff_exists.1 (h.groups g hg)
  exact ⟨⟨0, .alignment a⟩, _, by rw [BlockGroup.laid, ha]; rfl, rfl⟩

/-- The rows of a layout have the grouping that the scene has. -/
theorem Scene.reads_laid {s : Scene} (h : ∀ p ∈ s.pages, p.IsGrouped) :
    s.relined.Reads True (rowsOf s.laid) :=
  RowsOfLines.of_laid (p := Row.isPage) (fun p hp => Page.reads_laid (h p hp)) fun p _ =>
    ⟨⟨0, p.headRow⟩, _, rfl, rfl⟩

/-! ## A layout shows nothing new -/

variable {greedy : Prop} {p : Row → Prop} (hblank : p (.blank .newline))

include hblank

theorem forall_lines {α : Type} {f : α → List LaidRow} {lines : List (Line α)}
    (hlines : ∀ t, .blank t ∈ lines → t = .newline)
    (hcontent : ∀ x ∈ lines.filterMap Line.content?, ∀ r ∈ rowsOf (f x), p r) :
    ∀ r ∈ rowsOf (lines.flatMap (Line.laid f)), p r := by
  intro r hr
  rw [rowsOf_flatMap] at hr
  obtain ⟨line, hline, hr⟩ := List.mem_flatMap.1 hr
  cases line with
  | blank t =>
    rw [List.mem_singleton.1 hr, hlines t hline]
    exact hblank
  | content x => exact hcontent x (List.mem_filterMap.2 ⟨_, hline, rfl⟩) r hr

theorem ElementGroup.Reads.forall_laid {g : ElementGroup} (h : g.Reads greedy rows)
    (hrows : ∀ r ∈ rows, p r) (level : Nat) : ∀ r ∈ rowsOf (g.laid level), p r := by
  obtain ⟨rest, h, rfl⟩ := h
  obtain ⟨hlead, hrest⟩ := List.forall_mem_append.1 hrows
  rw [laid, rowsOf_append, rowsOf_map]
  refine List.forall_mem_append.2 ⟨hlead, forall_lines hblank (fun _ => eq_newline_of_mem_lines) ?_⟩
  intro e he
  rw [e.rowsOf_laid]
  exact h.forall_member hrest (fun e r he hr => he ▸ hr) e (g.content?_lines ▸ he)

theorem Block.Reads.forall_laid {b : Block} (h : b.Reads greedy rows) (hrows : ∀ r ∈ rows, p r) :
    ∀ r ∈ rowsOf b.laid, p r := by
  obtain ⟨rest, h, rfl⟩ := h
  obtain ⟨hhead, hrest⟩ := List.forall_mem_cons.1 hrows
  rw [laid, rowsOf_cons, rowsOf_flatMap]
  refine List.forall_mem_cons.2 ⟨hhead, List.forall_mem_flatMap.2 ?_⟩
  exact RowsOf.forall_member h hrest fun g r hg hr => hg.1.forall_laid hblank hr 1

theorem BlockGroup.Reads.forall_laid {g : BlockGroup} (h : g.Reads greedy rows)
    (hrows : ∀ r ∈ rows, p r) : ∀ r ∈ rowsOf g.laid, p r := by
  obtain ⟨rest, h, rfl⟩ := h
  obtain ⟨hlead, hrest⟩ := List.forall_mem_append.1 hrows
  rw [laid, rowsOf_append, rowsOf_map]
  refine List.forall_mem_append.2 ⟨hlead, forall_lines hblank (fun _ => eq_newline_of_mem_lines) ?_⟩
  rw [g.content?_lines]
  exact h.forall_member hrest fun b r hb hr => hb.forall_laid hblank hr

theorem Page.Reads.forall_laid {p' : Page} (h : p'.Reads greedy rows) (hrows : ∀ r ∈ rows, p r) :
    ∀ r ∈ rowsOf p'.laid, p r := by
  obtain ⟨rest, h, rfl⟩ := h
  obtain ⟨hhead, hrest⟩ := List.forall_mem_cons.1 hrows
  rw [laid, rowsOf_cons, rowsOf_flatMap]
  refine List.forall_mem_cons.2 ⟨hhead, List.forall_mem_flatMap.2 ?_⟩
  exact RowsOf.forall_member h hrest fun g r hg hr => hg.1.forall_laid hblank hr

/-- What holds of the rows of a scene and of blank lines holds of the rows of its layout. -/
theorem Scene.Reads.forall_laid {s : Scene} (h : s.Reads greedy rows) (hrows : ∀ r ∈ rows, p r) :
    ∀ r ∈ rowsOf s.laid, p r := by
  rw [laid, rowsOf_flatMap]
  exact List.forall_mem_flatMap.2
    (RowsOfLines.forall_member h hrows fun _ _ hp hr => hp.forall_laid hblank hr)

end Grouped

end Wireframe
