import Wireframe.Proofs.Scene.PrintedLine

/-!
# Levels of indentation

A printer indents by what the open blocks and lists have added to its level. Taking away stops at
zero, and an empty stack of lists gives nothing, so that a walk that is out of balance would go
unnoticed. It never is (`Printer.KeepsBalance`): at each step what is taken away is there, and the
printer is back at the margin when a block is left.

So how far the line of a node is indented only depends on where the node sits (`Spot`), whatever was
printed before (`Scene.layout_balanced`).
-/

namespace Wireframe

/-! ## Balance -/

namespace Printer

/-- Nothing is indented, no list is open, and no alignment waits for its direction. -/
structure IsAtMargin (p : Printer) : Prop where
  indent : p.indent = 0
  listDepths : p.listDepths = []
  inAlignment : p.inAlignment = false

/-- Before a step, a printer has what the step takes away: the level of a block, the depth of just
    the list that is left. A block is left to the margin, and no other step takes anything. -/
def Balanced (p : Printer) : Step → Prop
  | .leave (.block b) => 1 ≤ p.indent ∧ (p.leave (.block b)).IsAtMargin
  | .leave (.list l) => ∃ depths, p.listDepths = l.depth :: depths ∧ l.depth ≤ p.indent
  | step => p.indent ≤ (p.follow step).indent ∧ p.listDepths <:+ (p.follow step).listDepths

/-- A printer that keeps its balance at each step of a walk. -/
def KeepsBalance (p : Printer) : List Step → Prop
  | [] => True
  | step :: steps => p.Balanced step ∧ (p.follow step).KeepsBalance steps

variable {p q : Printer} {passages : List Passage}

theorem isAtMargin_start (s : Scene) : (start s).IsAtMargin := ⟨rfl, rfl, rfl⟩

theorem Emits.isAtMargin (h : Emits p passages q) (hp : p.IsAtMargin) : q.IsAtMargin where
  indent := h.indent.trans hp.indent
  listDepths := h.listDepths.trans hp.listDepths
  inAlignment := h.inAlignment.trans hp.inAlignment

/-- Entering a node only adds to the level of indentation and to the stack of lists. -/
theorem balanced_enter (n : Node) (p : Printer) : p.Balanced (.enter n) := by
  change p.indent ≤ (p.enter n).indent ∧ p.listDepths <:+ (p.enter n).listDepths
  cases n with
  | list l =>
    obtain ⟨-, -, hindent, -, hdepths, -⟩ := openList_spec l ((p.startLine (.list l)).forgetList)
    rw [enter, hindent, hdepths]
    simp [forgetList]
  | blocks g | elements g =>
    rw [enter]
    split <;> simp [forgetList, blankLine]
  | direction d =>
    rw [enter]
    split <;> simp [writeLine]
  | item i =>
    rw [enter]
    split <;> simp [writeLine, forgetList, blankLine]
  | _ => simp [enter, forgetList, writeLine, deeper]

namespace KeepsBalance

variable {steps steps' : List Step}

theorem append (h : p.KeepsBalance steps) (h' : (steps.foldl follow p).KeepsBalance steps') :
    p.KeepsBalance (steps ++ steps') := by
  induction steps generalizing p with
  | nil => exact h'
  | cons step steps ih => exact ⟨h.1, ih h.2 h'⟩

/-- A node is left at the end. -/
theorem leave {n : Node} (h : p.KeepsBalance steps)
    (hleave : (steps.foldl follow p).Balanced (.leave n)) : p.KeepsBalance (steps ++ [.leave n]) :=
  h.append ⟨hleave, trivial⟩

/-- The balance is kept at every single step. -/
theorem balanced {before after : List Step} {step : Step}
    (h : p.KeepsBalance (before ++ step :: after)) : (before.foldl follow p).Balanced step := by
  induction before generalizing p with
  | nil => exact h.1
  | cons first before ih => exact ih h.2

/-- Members one after the other, each of which leaves the printer as the next one wants it. -/
theorem flatMap {α : Type} {walk : α → List Step} {ready : Printer → Prop}
    (h : ∀ x p, ready p → p.KeepsBalance (walk x) ∧ ready ((walk x).foldl follow p)) (xs : List α)
    (hp : ready p) : p.KeepsBalance (xs.flatMap walk) := by
  induction xs generalizing p with
  | nil => trivial
  | cons x xs ih =>
    obtain ⟨hfirst, hnext⟩ := h x p hp
    rw [List.flatMap_cons]
    exact hfirst.append (ih hnext)

end KeepsBalance

end Printer

/-! ## The balance of a walk -/

/-- A step that enters a node. -/
def Step.isEnter : Step → Bool
  | enter _ => true
  | leave _ => false

theorem isEnter_values (title : Option Value) :
    ∀ step ∈ title.toList.flatMap Value.walk, step.isEnter :=
  List.forall_mem_flatMap.2 fun _ _ => List.forall_mem_singleton.2 rfl

theorem Item.isEnter_walk (i : Item) : ∀ step ∈ i.walk, step.isEnter := by
  refine List.forall_mem_cons.2 ⟨rfl, ?_⟩
  obtain ⟨⟨_, _, value⟩ | l, _⟩ := i
  · exact isEnter_values value
  · exact List.forall_mem_singleton.2 rfl

theorem Direction.isEnter_walk (d : Direction) : ∀ step ∈ d.walk, step.isEnter :=
  List.forall_mem_cons.2
    ⟨rfl, List.forall_mem_flatMap.2 fun _ _ => List.forall_mem_singleton.2 rfl⟩

theorem Alignment.isEnter_walk (a : Alignment) : ∀ step ∈ a.walk, step.isEnter :=
  List.forall_mem_append.2 ⟨List.forall_mem_cons.2
    ⟨rfl, List.forall_mem_flatMap.2 fun _ _ => List.forall_mem_singleton.2 rfl⟩,
      a.direction.isEnter_walk⟩

namespace Printer

/-- Entering nodes takes nothing. -/
theorem keepsBalance_of_isEnter {steps : List Step} (h : ∀ step ∈ steps, step.isEnter)
    (p : Printer) : p.KeepsBalance steps := by
  induction steps generalizing p with
  | nil => trivial
  | cons step steps ih =>
    obtain ⟨hstep, hsteps⟩ := List.forall_mem_cons.1 h
    refine ⟨?_, ih hsteps _⟩
    cases step with
    | enter n => exact balanced_enter n p
    | leave n => cases hstep

/-- A node is entered, and what is on its line, and then come the nodes below it. -/
theorem keepsBalance_inside (n : Node) {head body : List Step} (hhead : ∀ step ∈ head, step.isEnter)
    (hbody : ((.enter n :: head).foldl follow p).KeepsBalance body) :
    p.KeepsBalance (.enter n :: head ++ body) :=
  (keepsBalance_of_isEnter (List.forall_mem_cons.2 ⟨rfl, hhead⟩) p).append hbody

theorem keepsBalance_list (l : ItemList) (p : Printer) : p.KeepsBalance l.walk := by
  obtain ⟨-, hindent, -, hdepths⟩ := follow_insideList l p
  have hitems : ∀ step ∈ l.items.flatMap Item.walk, step.isEnter :=
    List.forall_mem_flatMap.2 fun i _ => i.isEnter_walk
  have hinside : p.KeepsBalance l.inside :=
    keepsBalance_inside (.list l) (isEnter_values l.title) (keepsBalance_of_isEnter hitems _)
  -- the depth that is taken away is the one that was put on the stack, and it was added
  exact hinside.leave ⟨p.listDepths, hdepths, hindent ▸ Nat.le_add_left ..⟩

theorem keepsBalance_element (e : Element) (p : Printer) : p.KeepsBalance e.walk := by
  cases e with
  | item i => exact keepsBalance_of_isEnter i.isEnter_walk p
  | list l => exact keepsBalance_list l p

/-- Members that keep the balance after anything. -/
theorem keepsBalance_flatMap {α : Type} {walk : α → List Step}
    (h : ∀ x p, KeepsBalance p (walk x)) (xs : List α) (p : Printer) :
    p.KeepsBalance (xs.flatMap walk) := by
  have hready : ∀ x p, True → KeepsBalance p (walk x) ∧ True := fun x p _ => ⟨h x p, trivial⟩
  exact .flatMap hready xs trivial

theorem keepsBalance_elements (g : ElementGroup) (p : Printer) : p.KeepsBalance g.walk := by
  have hdirection : ∀ step ∈ g.direction.toList.flatMap Direction.walk, step.isEnter :=
    List.forall_mem_flatMap.2 fun d _ => d.isEnter_walk
  have hinside := keepsBalance_inside (p := p) (.elements g) hdirection
    (keepsBalance_flatMap keepsBalance_element g.entries _)
  exact hinside.leave ⟨Nat.le_refl _, List.suffix_refl _⟩

theorem keepsBalance_block (b : Block) (hp : p.IsAtMargin) :
    p.KeepsBalance b.walk ∧ (b.walk.foldl follow p).IsAtMargin := by
  have hmargin : (b.walk.foldl follow p).IsAtMargin :=
    (follow_block b hp.indent hp.inAlignment).isAtMargin hp
  refine ⟨?_, hmargin⟩
  obtain ⟨-, hindent, -, -⟩ := follow_insideBlock b hp.indent hp.inAlignment
  have hinside : p.KeepsBalance b.inside := keepsBalance_inside (.block b) (isEnter_values b.title)
    (keepsBalance_flatMap keepsBalance_elements b.groups _)
  rw [b.walk_eq_inside, List.foldl_append] at hmargin
  exact hinside.leave ⟨Nat.le_of_eq hindent.symm, hmargin⟩

/-- Blocks begin at the margin, also after an alignment. -/
theorem isAtMargin_blocks (g : BlockGroup) (hp : p.IsAtMargin) :
    ((.enter (.blocks g) :: g.alignment.toList.flatMap Alignment.walk).foldl
      follow p).IsAtMargin := by
  have henter : (p.enter (.blocks g)).IsAtMargin := by
    rw [enter]
    split
    · exact ⟨hp.indent, hp.listDepths, hp.inAlignment⟩
    · exact ⟨hp.indent, hp.listDepths, hp.inAlignment⟩
  cases g.alignment with
  | none => exact henter
  | some a =>
    rw [List.foldl_cons, Option.toList_some, List.flatMap_singleton]
    exact (follow_alignment a henter.inAlignment).isAtMargin henter

theorem keepsBalance_blocks (g : BlockGroup) (hp : p.IsAtMargin) :
    p.KeepsBalance g.walk ∧ (g.walk.foldl follow p).IsAtMargin := by
  refine ⟨?_, (follow_blocks g hp.indent hp.inAlignment).isAtMargin hp⟩
  have halignment : ∀ step ∈ g.alignment.toList.flatMap Alignment.walk, step.isEnter :=
    List.forall_mem_flatMap.2 fun a _ => a.isEnter_walk
  have hinside := keepsBalance_inside (.blocks g) halignment
    (.flatMap (fun b _ => keepsBalance_block b) g.blocks (isAtMargin_blocks g hp))
  exact hinside.leave ⟨Nat.le_refl _, List.suffix_refl _⟩

theorem keepsBalance_page (page : Page) (hp : p.IsAtMargin) :
    p.KeepsBalance page.walk ∧ (page.walk.foldl follow p).IsAtMargin := by
  refine ⟨?_, (follow_page page hp.indent hp.inAlignment).isAtMargin hp⟩
  have hline : Emits p [.ofNode p.indent (.page page) [⟨p.indent, page.headRow⟩]]
      ((.enter (.page page) :: page.title.walk).foldl follow p) := emits_head rfl
  have htitle : ∀ step ∈ page.title.walk, step.isEnter := List.forall_mem_singleton.2 rfl
  have hinside := keepsBalance_inside (.page page) htitle
    (.flatMap (fun g _ => keepsBalance_blocks g) page.groups (hline.isAtMargin hp))
  exact hinside.leave ⟨Nat.le_refl _, List.suffix_refl _⟩

theorem keepsBalance_scene (s : Scene) : (start s).KeepsBalance s.walk := by
  have hpages : (start s).KeepsBalance (.enter (.scene s) :: s.pages.flatMap Page.walk) :=
    ⟨balanced_enter _ _,
      .flatMap (fun page _ => keepsBalance_page page) s.pages (isAtMargin_start s)⟩
  have hcomments : ∀ step ∈ s.comments.flatMap Comment.walk, step.isEnter :=
    List.forall_mem_flatMap.2 fun _ _ => List.forall_mem_singleton.2 rfl
  exact (hpages.append (keepsBalance_of_isEnter hcomments _)).leave
    ⟨Nat.le_refl _, List.suffix_refl _⟩

end Printer

/-! ## Where nodes sit -/

/-- A node with a line of its own, by where it sits. The direction of an alignment has none: it is
    on the line of the alignment. -/
inductive Spot
  | page (page : Page)
  | alignment (alignment : Alignment)
  | block (block : Block)
  /-- The direction of a group of elements. -/
  | direction (direction : Direction)
  /-- An item or a list in a group of elements. -/
  | entry (entry : Element)
  /-- An item of a list. -/
  | member (list : ItemList) (item : Item)

namespace Spot

/-- The node that sits there. -/
def node : Spot → Node
  | page p => .page p
  | alignment a => .alignment a
  | block b => .block b
  | direction d => .direction d
  | entry e => e.node
  | member _ i => .item i

/-- How far the line of the node is indented. -/
def level : Spot → Nat
  | page _ | alignment _ | block _ => 0
  | direction _ | entry _ => 1
  | member l _ => if l.headerEnd.isSome then 3 else 2

/-- What is said on a line after that of the node: what a list consists of, if its
    head takes two lines. -/
def more? : Spot → Option String
  | entry (.list l) => if l.headerEnd.isSome then some l.consistsOf.squeezed else none
  | _ => none

/-- The lines that show the node, the second one a level deeper. -/
def lines (x : Spot) : List String :=
  (Printer.indentation x.level ++ x.node.line) ::
    x.more?.toList.map (Printer.indentation (x.level + 1) ++ ·)

/-- The nodes that are shown by these lines. -/
def shown (x : Spot) : List Node :=
  x.node.onLine

end Spot

namespace ItemList

/-- Where a list and its items sit. -/
def spots (l : ItemList) : List Spot :=
  .entry (.list l) :: l.items.map (.member l)

end ItemList

namespace Element

/-- Where an entry sits, and what is in it. -/
def spots : Element → List Spot
  | item i => [.entry (.item i)]
  | list l => l.spots

end Element

namespace ElementGroup

/-- Where the nodes of a group of elements sit. -/
def spots (g : ElementGroup) : List Spot :=
  g.direction.toList.map .direction ++ g.entries.flatMap Element.spots

end ElementGroup

namespace Block

/-- Where the nodes of a block sit. -/
def spots (b : Block) : List Spot :=
  .block b :: b.groups.flatMap ElementGroup.spots

end Block

namespace BlockGroup

/-- Where the nodes of a group of blocks sit. -/
def spots (g : BlockGroup) : List Spot :=
  g.alignment.toList.map .alignment ++ g.blocks.flatMap Block.spots

end BlockGroup

namespace Page

/-- Where the nodes of a page sit. -/
def spots (p : Page) : List Spot :=
  .page p :: p.groups.flatMap BlockGroup.spots

end Page

namespace Scene

/-- Where the nodes of a scene sit. -/
def spots (s : Scene) : List Spot :=
  s.pages.flatMap Page.spots

end Scene

/-! ## The nodes of a walk -/

theorem flatMap_shown {α : Type} {spots : α → List Spot} {walk : α → List Step}
    (h : ∀ x, (spots x).flatMap Spot.shown = (walk x).filterMap Step.shown?) (xs : List α) :
    (xs.flatMap spots).flatMap Spot.shown = (xs.flatMap walk).filterMap Step.shown? := by
  rw [List.flatMap_assoc, List.filterMap_flatMap]
  exact List.flatMap_congr fun x _ => h x

theorem ItemList.flatMap_shown_spots (l : ItemList) :
    l.spots.flatMap Spot.shown = l.walk.filterMap Step.shown? := by
  have hitems : (l.items.map (Spot.member l)).flatMap Spot.shown =
      (l.items.flatMap Item.walk).filterMap Step.shown? := by
    rw [List.map_eq_flatMap]
    exact flatMap_shown (fun i => i.filterMap_shown?.symm) l.items
  rw [spots, walk, List.flatMap_cons, hitems, List.filterMap_append, List.filterMap_append,
    List.filterMap_cons, filterMap_shown?_values]
  exact (List.append_nil _).symm

theorem Element.flatMap_shown_spots (e : Element) :
    e.spots.flatMap Spot.shown = e.walk.filterMap Step.shown? := by
  cases e with
  | item i => exact i.filterMap_shown?.symm
  | list l => exact l.flatMap_shown_spots

theorem ElementGroup.flatMap_shown_spots (g : ElementGroup) :
    g.spots.flatMap Spot.shown = g.walk.filterMap Step.shown? := by
  have hdirection : (g.direction.toList.map Spot.direction).flatMap Spot.shown =
      (g.direction.toList.flatMap Direction.walk).filterMap Step.shown? := by
    rw [List.map_eq_flatMap]
    exact flatMap_shown (fun d => d.filterMap_shown?.symm) _
  rw [spots, walk, List.flatMap_append, hdirection, flatMap_shown Element.flatMap_shown_spots,
    List.filterMap_append, List.filterMap_append]
  exact (List.append_nil _).symm

theorem Block.flatMap_shown_spots (b : Block) :
    b.spots.flatMap Spot.shown = b.walk.filterMap Step.shown? := by
  rw [spots, walk, List.flatMap_cons, flatMap_shown ElementGroup.flatMap_shown_spots,
    List.filterMap_append, List.filterMap_append, List.filterMap_cons, filterMap_shown?_values]
  exact (List.append_nil _).symm

theorem BlockGroup.flatMap_shown_spots (g : BlockGroup) :
    g.spots.flatMap Spot.shown = g.walk.filterMap Step.shown? := by
  have halignment : (g.alignment.toList.map Spot.alignment).flatMap Spot.shown =
      (g.alignment.toList.flatMap Alignment.walk).filterMap Step.shown? := by
    rw [List.map_eq_flatMap]
    exact flatMap_shown (fun a => a.filterMap_shown?.symm) _
  rw [spots, walk, List.flatMap_append, halignment, flatMap_shown Block.flatMap_shown_spots,
    List.filterMap_append, List.filterMap_append]
  exact (List.append_nil _).symm

theorem Page.flatMap_shown_spots (p : Page) :
    p.spots.flatMap Spot.shown = p.walk.filterMap Step.shown? := by
  rw [spots, walk, List.flatMap_cons, flatMap_shown BlockGroup.flatMap_shown_spots,
    List.filterMap_append, List.filterMap_append]
  exact (List.append_nil _).symm

/-- The nodes with a line are those that the walk shows, in its order. -/
theorem Scene.flatMap_shown_spots (s : Scene) :
    s.spots.flatMap Spot.shown = s.walk.filterMap Step.shown? := by
  have hcomments : (s.comments.flatMap Comment.walk).filterMap Step.shown? = [] :=
    filterMap_shown?_flatMap (fun _ => rfl) s.comments
  rw [spots, walk, flatMap_shown Page.flatMap_shown_spots, List.filterMap_append,
    List.filterMap_append, hcomments, List.append_nil]
  exact (List.append_nil _).symm

/-! ## The lines of a layout -/

/-- Lines that show some nodes in order, with blank lines between them. -/
inductive Spread : List Spot → List String → Prop
  | nil : Spread [] []
  | blank {spots : List Spot} {lines : List String} :
    Spread spots lines → Spread spots ("" :: lines)
  | spot {spots : List Spot} {lines : List String} (x : Spot) : Spread spots lines →
      Spread (x :: spots) (x.lines ++ lines)

namespace Spread

variable {spots spots' : List Spot} {lines lines' : List String}

theorem append (h : Spread spots lines) (h' : Spread spots' lines') :
    Spread (spots ++ spots') (lines ++ lines') := by
  induction h with
  | nil => exact h'
  | blank _ ih => exact .blank ih
  | spot x _ ih =>
    rw [List.append_assoc]
    exact .spot x ih

/-- A row that shows a node, and the rows after it. -/
theorem cons {x : Spot} {r : LaidRow} {rows : List LaidRow} (hrow : r.texts = x.lines)
    (h : Spread spots (rows.flatMap LaidRow.texts)) :
    Spread (x :: spots) ((r :: rows).flatMap LaidRow.texts) := by
  rw [List.flatMap_cons, hrow]
  exact .spot x h

/-- Rows that show a node each. -/
theorem map {α : Type} {f : α → Spot} {row : α → LaidRow} (h : ∀ x, (row x).texts = (f x).lines)
    (xs : List α) : Spread (xs.map f) ((xs.map row).flatMap LaidRow.texts) := by
  induction xs with
  | nil => exact .nil
  | cons x xs ih => exact .cons (h x) ih

section Members

variable {α : Type} {f : α → List Spot} {laid : α → List LaidRow}
  (h : ∀ x, Spread (f x) ((laid x).flatMap LaidRow.texts))

include h

theorem members (xs : List α) :
    Spread (xs.flatMap f) ((xs.flatMap laid).flatMap LaidRow.texts) := by
  induction xs with
  | nil => exact .nil
  | cons x xs ih =>
    rw [List.flatMap_cons, List.flatMap_cons, List.flatMap_append]
    exact (h x).append ih

/-- Members with blank lines among them. -/
theorem of_lines (lines : List (Line α)) : Spread ((lines.filterMap Line.content?).flatMap f)
    ((lines.flatMap (Line.laid laid)).flatMap LaidRow.texts) := by
  induction lines with
  | nil => exact .nil
  | cons line lines ih =>
    rw [List.flatMap_cons, List.flatMap_append]
    cases line with
    | blank t => exact .blank ih
    | content x => exact (h x).append ih

end Members

end Spread

theorem ItemList.spread (l : ItemList) : Spread l.spots ((l.laid 1).flatMap LaidRow.texts) := by
  obtain ⟨k, title, _ | headerEnd, c, e, items⟩ := l
  · exact .cons rfl (.map (fun _ => rfl) items)
  · exact .cons rfl (.map (fun _ => rfl) items)

theorem Element.spread (e : Element) : Spread e.spots ((e.laid 1).flatMap LaidRow.texts) := by
  cases e with
  | item i => exact .cons rfl .nil
  | list l => exact l.spread

theorem ElementGroup.spread (g : ElementGroup) :
    Spread g.spots ((g.laid 1).flatMap LaidRow.texts) := by
  have hentries := Spread.of_lines Element.spread g.lines
  rw [g.content?_lines] at hentries
  rw [spots, laid, List.flatMap_append]
  exact (Spread.map (fun _ => rfl) _).append hentries

theorem Block.spread (b : Block) : Spread b.spots (b.laid.flatMap LaidRow.texts) :=
  .cons rfl (.members ElementGroup.spread b.groups)

theorem BlockGroup.spread (g : BlockGroup) : Spread g.spots (g.laid.flatMap LaidRow.texts) := by
  have hblocks := Spread.of_lines Block.spread g.lines
  rw [g.content?_lines] at hblocks
  rw [spots, laid, List.flatMap_append]
  exact (Spread.map (fun _ => rfl) _).append hblocks

theorem Page.spread (p : Page) : Spread p.spots (p.laid.flatMap LaidRow.texts) :=
  .cons rfl (.members BlockGroup.spread p.groups)

theorem Scene.spread (s : Scene) : Spread s.spots (s.laid.flatMap LaidRow.texts) :=
  .members Page.spread s.pages

/-- A scene is printed in balance: no step of the walk takes away what is not there, and the printer
    is at the margin when it leaves a block, and at the end. What it has printed then are the lines
    of the nodes that the walk shows, each of them indented by where its node sits, with blank lines
    and comments between them. -/
theorem Scene.layout_balanced (s : Scene) :
    (∀ before step after, s.walk = before ++ step :: after →
      (before.foldl Printer.follow (.start s)).Balanced step) ∧
    (s.walk.foldl Printer.follow (.start s)).IsAtMargin ∧
    s.spots.flatMap Spot.shown = s.walk.filterMap Step.shown? ∧
    ∃ lines, Spread s.spots lines ∧
      Commented (sortByOffset (s.comments.map Comment.token)) lines
        (s.walk.foldl Printer.follow (.start s)).flush.lines.reverse := by
  refine ⟨fun before step after hwalk => ?_, ?_, s.flatMap_shown_spots, _, s.spread, ?_⟩
  · exact Printer.KeepsBalance.balanced (hwalk ▸ Printer.keepsBalance_scene s)
  · exact (Printer.follow_scene s).isAtMargin (Printer.isAtMargin_start s)
  · rw [Printer.lines_scene, ← s.texts_passages]
    exact commented_arrange _ _

/-- A list on two lines with an item, and an item after it. -/
theorem Scene.layout_balanced_list :
    let keyword (k : Keyword) (image : String) : Token := ⟨.keyword k, image, .origin⟩
    let i : Item := ⟨.widget .image (keyword .image "Image") none, .newline⟩
    let l : ItemList := ⟨keyword .list "List", none, some .newline,
      keyword .consistsOf "consists of", .newline, [i]⟩
    let elements : ElementGroup := ⟨none, [.list l, .item i], []⟩
    let b : Block := ⟨keyword .block "Block", none, .newline, [elements]⟩
    let blocks : BlockGroup := ⟨none, [b], []⟩
    let title : Value := .freeText ⟨.freeText, "A", .origin⟩
    let p : Page := ⟨none, keyword .page "Page:", title, .newline, [blocks]⟩
    let s : Scene := ⟨[p], [], []⟩
    let before := [.enter (.scene s), .enter (.page p), .enter (.value title),
      .enter (.blocks blocks), .enter (.block b), .enter (.elements elements), .enter (.list l),
      .enter (.item i)]
    let after := [.enter (.item i), .leave (.elements elements), .leave (.block b),
      .leave (.blocks blocks), .leave (.page p), .leave (.scene s)]
    s.walk = before ++ .leave (.list l) :: after ∧
      (∃ depths, (before.foldl Printer.follow (.start s)).listDepths = 2 :: depths ∧
        2 ≤ (before.foldl Printer.follow (.start s)).indent) ∧
      (s.walk.foldl Printer.follow (.start s)).IsAtMargin ∧
      s.spots = [.page p, .block b, .entry (.list l), .member l i, .entry (.item i)] ∧
      ∃ lines, Spread s.spots lines ∧ Commented [] lines ["Page: A", "Block", "    List",
        "        consists of", "            Image", "", "    Image"] := by
  intro keyword i l elements b blocks title p s before after
  obtain ⟨hsteps, hmargin, -, lines, hspread, hlines⟩ := s.layout_balanced
  have hprinted : (s.walk.foldl Printer.follow (.start s)).flush.lines.reverse =
      ["Page: A", "Block", "    List", "        consists of", "            Image",
        "", "    Image"] := by
    decide +kernel
  rw [hprinted] at hlines
  have hwalk : s.walk = before ++ .leave (.list l) :: after := by decide +kernel
  obtain ⟨depths, hdepths, hindent⟩ := hsteps before (.leave (.list l)) after hwalk
  exact ⟨hwalk, ⟨depths, hdepths, hindent⟩, hmargin, rfl, lines, hspread, hlines⟩

end Wireframe
