import Wireframe.Grammar.Rules
import Wireframe.Scene.Node

/-!
# Rows

A scene is written in *rows*: the first line of a page or a block, an alignment, a direction, the
head of a list, an item, a blank line. A row is a line of the source, but for the head of a list,
which may take two. The tree of a scene is a way to group its rows, and says everything about them
but where the blank lines of a group stand between its members.

* `Scene.Reads`: a scene groups the given rows. The grouping is *greedy* when every group takes all
  that it can: a list the items after it, a block the blank lines after it, and so on. It is the
  grouping that a parse makes.
* `Row.IsWellFormed`: the tokens of a row have the kinds that their places in it demand.
* `Spells`: a list of tokens is what well-formed rows of a tree are made of.
-/

namespace Wireframe

/-- A line of a scene, or the two lines at the head of a list. -/
inductive Row
  | blank (lineEnd : Token)
  | page (device : Option DeviceTag) (keyword : Token) (title : Value) (lineEnd : Token)
  | alignment (alignment : Alignment)
  | block (keyword : Token) (title : Option Value) (lineEnd : Token)
  | direction (direction : Direction)
  | list (keyword : Token) (title : Option Value) (headerEnd : Option Token)
    (consistsOf lineEnd : Token)
  | item (item : Item)

/-! ## The tokens of a row -/

/-- Tokens with separators between them, in turn. -/
def separated : List Token → List Token → List Token
  | t :: tokens, s :: separators => t :: s :: separated tokens separators
  | tokens, [] => tokens
  | [], separators => separators

theorem separated_perm (tokens separators : List Token) :
    (separated tokens separators).Perm (tokens ++ separators) := by
  induction tokens generalizing separators with
  | nil => cases separators <;> exact .refl _
  | cons t tokens ih =>
    cases separators with
    | nil => rw [separated, List.append_nil]
    | cons s separators =>
      exact (((ih separators).cons s).trans List.perm_middle.symm).cons t

/-- Something first, and then others with a separator before each. -/
theorem separated_cons_map {α : Type} (f : α → Token) (first : Token) (more : List (Token × α)) :
    separated (first :: more.map fun n => f n.2) (more.map Prod.fst) =
      first :: more.flatMap fun n => [n.1, f n.2] := by
  induction more generalizing first with
  | nil => rfl
  | cons n more ih =>
    rw [List.map_cons, List.map_cons, separated, ih]
    rfl

/-- Others, each with the separator before it. -/
theorem exists_pairs {α : Type} {xs : List α} {separators : List Token}
    (h : separators.length = xs.length) : ∃ more : List (Token × α),
      more.map Prod.fst = separators ∧ more.map Prod.snd = xs :=
  ⟨separators.zip xs, List.map_fst_zip (Nat.le_of_eq h), List.map_snd_zip (Nat.le_of_eq h.symm)⟩

namespace Alignment

/-- The tokens of an alignment in the order in which they are written. -/
def written (a : Alignment) : List Token :=
  a.keyword :: separated (a.names.map Literal.token) a.commas ++ a.aligned :: a.direction.leaves

theorem leaves_perm_written (a : Alignment) : a.leaves.Perm a.written := by
  rw [leaves, written, List.append_assoc, List.append_assoc, List.cons_append, List.cons_append,
    ← List.append_assoc]
  exact ((separated_perm _ _).symm.append_right _).cons _

end Alignment

namespace Row

/-- The tokens of a row in the order in which they are written. -/
def leaves : Row → List Token
  | blank lineEnd => [lineEnd]
  | page device keyword title lineEnd =>
    device.toList.map DeviceTag.token ++ [keyword, title.token, lineEnd]
  | alignment a => a.written
  | block keyword title lineEnd => keyword :: title.toList.map Value.token ++ [lineEnd]
  | direction d => d.leaves
  | list keyword title headerEnd consistsOf lineEnd =>
    keyword :: title.toList.map Value.token ++ headerEnd.toList ++ [consistsOf, lineEnd]
  | item i => i.leaves

/-- The tokens of some rows. -/
def tokens (rows : List Row) : List Token :=
  rows.flatMap leaves

@[simp] theorem tokens_nil : tokens [] = [] := rfl

@[simp] theorem tokens_cons (r : Row) (rows : List Row) :
    tokens (r :: rows) = r.leaves ++ tokens rows := rfl

@[simp] theorem tokens_append (rows rows' : List Row) :
    tokens (rows ++ rows') = tokens rows ++ tokens rows' :=
  List.flatMap_append

theorem leaves_ne_nil (r : Row) : r.leaves ≠ [] := by
  cases r <;> simp [leaves, Alignment.written, Direction.leaves, Item.leaves]

theorem tokens_eq_nil_iff {rows : List Row} : tokens rows = [] ↔ rows = [] := by
  cases rows with
  | nil => exact iff_of_true rfl rfl
  | cons r rows => simp [leaves_ne_nil]

end Row

/-! ## Well-formed rows -/

namespace Value

/-- The kind that the token of a value has. -/
def kind : Value → TokenKind
  | freeText _ => .freeText
  | quotation _ => .quotation
  | placeholder _ => .placeholder

/-- The token of a value is of the kind that the value says. -/
def IsWellFormed (v : Value) : Prop :=
  v.token.kind = v.kind

end Value

namespace Literal

/-- The kind that the token of a literal has. -/
def kind : Literal → TokenKind
  | quotation _ => .quotation
  | placeholder _ => .placeholder

/-- The token of a literal is of the kind that the literal says. -/
def IsWellFormed (l : Literal) : Prop :=
  l.token.kind = l.kind

end Literal

namespace DeviceTag

/-- The token of a device tag is the keyword for the device. -/
def IsWellFormed (d : DeviceTag) : Prop :=
  d.token.kind = .keyword d.device.keyword

end DeviceTag

namespace Count

/-- The token of a count stands for its value. -/
def IsWellFormed (c : Count) : Prop :=
  c.token.count? = some c.value

end Count

namespace Direction

/-- The tokens of a direction have the kinds of their places, the keyword that of the axis. -/
structure IsWellFormed (d : Direction) : Prop where
  count : ∀ c ∈ d.count, c.IsWellFormed
  keyword : d.keyword.kind = .keyword d.axis.keyword
  lineEnd : d.lineEnd.kind = .lineEnd

end Direction

namespace Item

/-- The tokens of what an item shows have the kinds of their places, the keyword that of the
    widget. -/
def ContentIsWellFormed : ItemContent → Prop
  | .widget kind keyword value =>
    keyword.kind = .keyword kind.keyword ∧ ∀ v ∈ value, v.IsWellFormed
  | .literal literal => literal.IsWellFormed

/-- The tokens of an item have the kinds of their places. -/
structure IsWellFormed (i : Item) : Prop where
  content : ContentIsWellFormed i.content
  lineEnd : i.lineEnd.kind = .lineEnd

end Item

namespace Alignment

/-- The tokens of an alignment have the kinds of their places, and there is a comma between any two
    names. -/
structure IsWellFormed (a : Alignment) : Prop where
  keyword : a.keyword.kind = .keyword .blocks
  names : ∀ l ∈ a.names, l.IsWellFormed
  commas : ∀ t ∈ a.commas, t.kind = .comma
  between : a.commas.length = a.names.length - 1
  aligned : a.aligned.kind = .keyword .aligned
  direction : a.direction.IsWellFormed

end Alignment

namespace Row

/-- The tokens of a row have the kinds of their places. -/
def IsWellFormed : Row → Prop
  | blank lineEnd => lineEnd.kind = .lineEnd
  | page device keyword title lineEnd =>
    (∀ d ∈ device, d.IsWellFormed) ∧ keyword.kind = .keyword .page ∧ title.IsWellFormed ∧
      lineEnd.kind = .lineEnd
  | alignment a => a.IsWellFormed
  | block keyword title lineEnd =>
    keyword.kind = .keyword .block ∧ (∀ v ∈ title, v.IsWellFormed) ∧ lineEnd.kind = .lineEnd
  | direction d => d.IsWellFormed
  | list keyword title headerEnd consistsOf lineEnd =>
    keyword.kind = .keyword .list ∧ (∀ v ∈ title, v.IsWellFormed) ∧
      (∀ t ∈ headerEnd, t.kind = .lineEnd) ∧ consistsOf.kind = .keyword .consistsOf ∧
      lineEnd.kind = .lineEnd
  | item i => i.IsWellFormed

/-- Whether a row is an item. -/
def isItem : Row → Bool
  | item _ => true
  | _ => false

/-- Whether a row is a direction. -/
def isDirection : Row → Bool
  | direction _ => true
  | _ => false

/-- Whether a row begins a block. -/
def isBlock : Row → Bool
  | block .. => true
  | _ => false

/-- Whether a row is an alignment. -/
def isAlignment : Row → Bool
  | alignment _ => true
  | _ => false

/-- Whether a row begins a page. -/
def isPage : Row → Bool
  | page .. => true
  | _ => false

/-- Whether a row is a line of a group of elements. -/
def isEntry : Row → Bool
  | blank _ | list .. | item _ => true
  | _ => false

end Row

/-! ## The rows of a tree -/

section RowsOf

variable {α β : Type} {P : α → List Row → Prop} {F : α → List Row → Prop}

/-- Rows that are those of the given members, one after the other. `P` tells the rows of a member,
    and `F` the rows of the members after it that it allows. -/
inductive RowsOf (P F : α → List Row → Prop) : List α → List Row → Prop
  | nil : RowsOf P F [] []
  | cons {x : α} {r : List Row} {xs : List α} {rows : List Row} :
    P x r → F x rows → RowsOf P F xs rows → RowsOf P F (x :: xs) (r ++ rows)

namespace RowsOf

theorem mono {P' F' : α → List Row → Prop} (hP : ∀ x r, P x r → P' x r)
    (hF : ∀ x r, F x r → F' x r) {xs : List α} {rows : List Row} (h : RowsOf P F xs rows) :
    RowsOf P' F' xs rows := by
  induction h with
  | nil => exact .nil
  | cons hx hf _ ih => exact .cons (hP _ _ hx) (hF _ _ hf) ih

/-- If the rows of every member have its tokens, so have the rows of all. -/
theorem perm_tokens {f : α → List Token} (hf : ∀ x r, P x r → (f x).Perm (Row.tokens r))
    {xs : List α} {rows : List Row} (h : RowsOf P F xs rows) :
    (xs.flatMap f).Perm (Row.tokens rows) := by
  induction h with
  | nil => exact .refl _
  | cons hx _ _ ih =>
    rw [List.flatMap_cons, Row.tokens_append]
    exact (hf _ _ hx).append ih

theorem eq_flatMap {f : α → List Row} {xs : List α} {rows : List Row}
    (h : RowsOf (fun x r => r = f x) F xs rows) : rows = xs.flatMap f := by
  induction h with
  | nil => rfl
  | cons hx _ _ ih => rw [List.flatMap_cons, hx, ih]

end RowsOf

end RowsOf

namespace Line

variable {α : Type}

/-- The rows of a line: a blank row, or those of what begins on the line. -/
def Reads (P : α → List Row → Prop) : Line α → List Row → Prop
  | blank t, rows => rows = [.blank t]
  | content x, rows => P x rows

/-- The rows that a line allows after it: any, if it is blank. -/
def Allows (F : α → List Row → Prop) : Line α → List Row → Prop
  | blank _, _ => True
  | content x, rows => F x rows

end Line

/-- The rows of a group whose lines hold the given members and blank lines. -/
def RowsOfLines {α : Type} (P F : α → List Row → Prop) (members : List α) (blanks : List Token)
    (rows : List Row) : Prop :=
  ∃ lines : List (Line α), lines.filterMap Line.content? = members ∧
    lines.filterMap Line.blank? = blanks ∧ RowsOf (Line.Reads P) (Line.Allows F) lines rows

namespace RowsOfLines

variable {α : Type} {P F : α → List Row → Prop} {members : List α} {blanks : List Token}
  {rows : List Row}

theorem nil : RowsOfLines P F [] [] [] :=
  ⟨[], rfl, rfl, .nil⟩

theorem blank (t : Token) (h : RowsOfLines P F members blanks rows) :
    RowsOfLines P F members (t :: blanks) (.blank t :: rows) := by
  obtain ⟨lines, rfl, rfl, h⟩ := h
  exact ⟨.blank t :: lines, rfl, rfl, .cons (r := [.blank t]) rfl trivial h⟩

theorem content {x : α} {r : List Row} (hx : P x r) (hf : F x rows)
    (h : RowsOfLines P F members blanks rows) :
    RowsOfLines P F (x :: members) blanks (r ++ rows) := by
  obtain ⟨lines, rfl, rfl, h⟩ := h
  exact ⟨.content x :: lines, rfl, rfl, .cons hx hf h⟩

/-- A fact about the rows of lines, from the first line on. -/
theorem induction {motive : List α → List Token → List Row → Prop} (nil : motive [] [] [])
    (blank : ∀ t members blanks rows, RowsOfLines P F members blanks rows →
      motive members blanks rows → motive members (t :: blanks) (.blank t :: rows))
    (content : ∀ x r members blanks rows, P x r → F x rows →
      RowsOfLines P F members blanks rows → motive members blanks rows →
        motive (x :: members) blanks (r ++ rows))
    (h : RowsOfLines P F members blanks rows) : motive members blanks rows := by
  obtain ⟨lines, rfl, rfl, h⟩ := h
  induction h with
  | nil => exact nil
  | @cons line r lines rows hx hf h ih =>
    cases line with
    | blank t =>
      rw [show r = [.blank t] from hx]
      exact blank t _ _ _ ⟨lines, rfl, rfl, h⟩ ih
    | content x => exact content x r _ _ _ hx hf ⟨lines, rfl, rfl, h⟩ ih

theorem mono {P' F' : α → List Row → Prop} (hP : ∀ x r, P x r → P' x r)
    (hF : ∀ x r, F x r → F' x r) (h : RowsOfLines P F members blanks rows) :
    RowsOfLines P' F' members blanks rows := by
  refine h.induction .nil (fun t _ _ _ _ ih => ih.blank t) ?_
  exact fun _ _ _ _ _ hx hf _ ih => ih.content (hP _ _ hx) (hF _ _ hf)

/-- If the rows of every member have its tokens, the rows of the lines have those of the members and
    the blank lines. -/
theorem perm_tokens {f : α → List Token} (hf : ∀ x r, P x r → (f x).Perm (Row.tokens r))
    (h : RowsOfLines P F members blanks rows) :
    (members.flatMap f ++ blanks).Perm (Row.tokens rows) := by
  refine h.induction (motive := fun members blanks rows =>
    (members.flatMap f ++ blanks).Perm (Row.tokens rows)) (.refl _) ?_ ?_
  · intro t members blanks rows _ ih
    exact List.perm_middle.trans (ih.cons t)
  · intro x r members blanks rows hx _ _ ih
    rw [List.flatMap_cons, List.append_assoc, Row.tokens_append]
    exact (hf x r hx).append ih

theorem eq_nil_iff (hP : ∀ x r, P x r → r ≠ []) (h : RowsOfLines P F members blanks rows) :
    rows = [] ↔ members = [] ∧ blanks = [] := by
  refine h.induction (motive := fun members blanks rows =>
    rows = [] ↔ members = [] ∧ blanks = []) (by simp) ?_ ?_
  · exact fun _ _ _ _ _ _ => by simp
  · exact fun x r _ _ _ hx _ _ _ => by simp [hP x r hx]

end RowsOfLines

namespace ItemList

/-- The row at the head of a list. -/
def headRow (l : ItemList) : Row :=
  .list l.keyword l.title l.headerEnd l.consistsOf l.lineEnd

/-- The rows of a list. -/
def rows (l : ItemList) : List Row :=
  l.headRow :: l.items.map .item

end ItemList

namespace Element

/-- The rows of an entry. -/
def rows : Element → List Row
  | item i => [.item i]
  | list l => l.rows

end Element

/-! Where the grouping is greedy, what is allowed after a member is what cannot be a part of it. -/

section Reads

variable (greedy : Prop)

/-- After an entry: no item may follow a list. -/
def Element.Allows : Element → List Row → Prop
  | .item _, _ => True
  | .list _, rows => greedy → ∀ r ∈ rows.head?, r.isItem = false

theorem Element.allows_false (e : Element) (rows : List Row) : e.Allows False rows := by
  cases e
  · trivial
  · exact False.elim

/-- The rows that a group of elements groups. -/
def ElementGroup.Reads (g : ElementGroup) (rows : List Row) : Prop :=
  ∃ rest, RowsOfLines (fun e r => r = e.rows) (Element.Allows greedy) g.entries g.lineEnds rest ∧
    rows = g.direction.toList.map .direction ++ rest

/-- The rows of the groups of a block: none is empty, and only a direction ends one. -/
def Block.ReadsGroups (groups : List ElementGroup) (rows : List Row) : Prop :=
  RowsOf (fun g r => g.Reads greedy r ∧ r ≠ [])
    (fun _ rows => greedy → ∀ r ∈ rows.head?, r.isDirection) groups rows

/-- The row at the head of a block. -/
def Block.headRow (b : Block) : Row :=
  .block b.keyword b.title b.lineEnd

/-- The rows that a block groups. -/
def Block.Reads (b : Block) (rows : List Row) : Prop :=
  ∃ rest, Block.ReadsGroups greedy b.groups rest ∧ rows = b.headRow :: rest

/-- The rows that a group of blocks groups: only a block ends one before it. -/
def BlockGroup.Reads (g : BlockGroup) (rows : List Row) : Prop :=
  ∃ rest, RowsOfLines (Block.Reads greedy) (fun _ rows => greedy → ∀ r ∈ rows.head?, r.isBlock)
      g.blocks g.lineEnds rest ∧
    rows = g.alignment.toList.map .alignment ++ rest

/-- The rows of the groups of a page: none is empty, and only an alignment ends one. -/
def Page.ReadsGroups (groups : List BlockGroup) (rows : List Row) : Prop :=
  RowsOf (fun g r => g.Reads greedy r ∧ r ≠ [])
    (fun _ rows => greedy → ∀ r ∈ rows.head?, r.isAlignment) groups rows

/-- The row at the head of a page. -/
def Page.headRow (p : Page) : Row :=
  .page p.device p.keyword p.title p.lineEnd

/-- The rows that a page groups. -/
def Page.Reads (p : Page) (rows : List Row) : Prop :=
  ∃ rest, Page.ReadsGroups greedy p.groups rest ∧ rows = p.headRow :: rest

/-- The rows that a scene groups: only a page ends one before it. -/
def Scene.Reads (s : Scene) (rows : List Row) : Prop :=
  RowsOfLines (Page.Reads greedy) (fun _ rows => greedy → ∀ r ∈ rows.head?, r.isPage)
    s.pages s.lineEnds rows

end Reads

/-- A tree of which `P` tells the rows is made of the given tokens: they are those of its rows,
    which are well-formed. -/
def Spells {α : Type} (P : α → List Row → Prop) (x : α) (tokens : List Token) : Prop :=
  ∃ rows, P x rows ∧ (∀ r ∈ rows, r.IsWellFormed) ∧ tokens = Row.tokens rows

section Mem

variable {rows : List Row}

/-- A condition on rows that holds of those of every member holds of all. -/
theorem RowsOf.forall_mem {α : Type} {P F : α → List Row → Prop} {p : Row → Prop} {xs : List α}
    (h : RowsOf P F xs rows) (hP : ∀ x r, P x r → ∀ row ∈ r, p row) : ∀ row ∈ rows, p row := by
  induction h with
  | nil => exact fun _ h => absurd h List.not_mem_nil
  | cons hx _ _ ih => exact fun row hrow => (List.mem_append.1 hrow).elim (hP _ _ hx row) (ih row)

theorem RowsOfLines.forall_mem {α : Type} {P F : α → List Row → Prop} {p : Row → Prop}
    {members : List α} {blanks : List Token} (h : RowsOfLines P F members blanks rows)
    (hblank : ∀ t, p (.blank t)) (hP : ∀ x r, P x r → ∀ row ∈ r, p row) : ∀ row ∈ rows, p row := by
  obtain ⟨lines, -, -, h⟩ := h
  refine h.forall_mem fun line r hr row hrow => ?_
  cases line with
  | blank t =>
    rw [show r = [.blank t] from hr, List.mem_singleton] at hrow
    exact hrow ▸ hblank t
  | content x => exact hP x r hr row hrow

/-- Members have what follows from a condition that all rows meet. -/
theorem RowsOf.forall_member {α : Type} {P F : α → List Row → Prop} {p : α → Prop} {q : Row → Prop}
    {xs : List α} {rows : List Row} (h : RowsOf P F xs rows) (hq : ∀ r ∈ rows, q r)
    (hP : ∀ x r, P x r → (∀ row ∈ r, q row) → p x) : ∀ x ∈ xs, p x := by
  induction h with
  | nil => exact fun _ h => absurd h List.not_mem_nil
  | cons hx _ _ ih =>
    refine List.forall_mem_cons.2 ⟨hP _ _ hx fun row hrow => ?_, ih fun row hrow => ?_⟩
    · exact hq row (List.mem_append_left _ hrow)
    · exact hq row (List.mem_append_right _ hrow)

theorem RowsOfLines.forall_member {α : Type} {P F : α → List Row → Prop} {p : α → Prop}
    {q : Row → Prop} {members : List α} {blanks : List Token} {rows : List Row}
    (h : RowsOfLines P F members blanks rows) (hq : ∀ r ∈ rows, q r)
    (hP : ∀ x r, P x r → (∀ row ∈ r, q row) → p x) : ∀ x ∈ members, p x := by
  obtain ⟨lines, rfl, -, h⟩ := h
  intro x hx
  obtain ⟨line, hline, hcontent⟩ := List.mem_filterMap.1 hx
  have hlines := h.forall_member (p := fun line => ∀ x, line.content? = some x → p x) hq
    fun line r hr hq x hx => by
      cases line with
      | blank t => cases hx
      | content y => exact Option.some.inj hx ▸ hP y r hr hq
  exact hlines line hline x hcontent

theorem Element.rows_isEntry (e : Element) : ∀ r ∈ e.rows, r.isEntry := by
  cases e with
  | item i => exact fun r hr => List.mem_singleton.1 hr ▸ rfl
  | list l =>
    refine List.forall_mem_cons.2 ⟨rfl, fun r hr => ?_⟩
    obtain ⟨i, -, rfl⟩ := List.mem_map.1 hr
    rfl

end Mem

section Empty

variable {greedy : Prop} {rows : List Row}

theorem Element.rows_ne_nil (e : Element) : e.rows ≠ [] := by
  cases e <;> exact List.cons_ne_nil _ _

/-- A group of elements has rows unless it is empty. -/
theorem ElementGroup.Reads.eq_nil_iff {g : ElementGroup} (h : g.Reads greedy rows) :
    rows = [] ↔ g.isEmpty = true := by
  obtain ⟨rest, h, rfl⟩ := h
  have := h.eq_nil_iff fun (e : Element) r (he : r = e.rows) => he ▸ e.rows_ne_nil
  simp [isEmpty, this, and_assoc]

theorem Block.Reads.ne_nil {b : Block} (h : b.Reads greedy rows) : rows ≠ [] := by
  obtain ⟨rest, -, rfl⟩ := h
  exact List.cons_ne_nil _ _

/-- A group of blocks has rows unless it is empty. -/
theorem BlockGroup.Reads.eq_nil_iff {g : BlockGroup} (h : g.Reads greedy rows) :
    rows = [] ↔ g.isEmpty = true := by
  obtain ⟨rest, h, rfl⟩ := h
  have := h.eq_nil_iff fun _ _ hb => hb.ne_nil
  simp [isEmpty, this, and_assoc]

end Empty

theorem Spells.row {α : Type} {P : α → List Row → Prop} {x : α} {r : Row} (hP : P x [r])
    (hr : r.IsWellFormed) : Spells P x r.leaves := by
  refine ⟨[r], hP, fun row hrow => ?_, (List.append_nil _).symm⟩
  rwa [List.mem_singleton.1 hrow]

/-- A row before the rows of something else. -/
theorem Spells.cons {α β : Type} {P : α → List Row → Prop} {Q : β → List Row → Prop} {x : α} {y : β}
    {r : Row} {tokens : List Token} (h : Spells P x tokens) (hr : r.IsWellFormed)
    (hQ : ∀ rows, P x rows → Q y (r :: rows)) : Spells Q y (r.leaves ++ tokens) := by
  obtain ⟨rows, hP, hwell, rfl⟩ := h
  exact ⟨r :: rows, hQ rows hP, List.forall_mem_cons.2 ⟨hr, hwell⟩, rfl⟩

/-- What the members of a list are made of, one after the other. -/
inductive Members {α : Type} (K : α → List Token → Prop) : List α → List Token → Prop
  | nil : Members K [] []
  | cons {x : α} {used : List Token} {xs : List α} {more : List Token} :
    K x used → Members K xs more → Members K (x :: xs) (used ++ more)

namespace Members

variable {α : Type} {P : α → List Row → Prop} {xs : List α} {tokens : List Token}

/-- Members that are each made of certain tokens. -/
theorem iff_flatMap {p : α → Prop} {f : α → List Token} :
    Members (fun x used => p x ∧ used = f x) xs tokens ↔
      (∀ x ∈ xs, p x) ∧ tokens = xs.flatMap f := by
  constructor
  · intro h
    induction h with
    | nil => exact ⟨by simp, rfl⟩
    | cons hx _ ih =>
      exact ⟨List.forall_mem_cons.2 ⟨hx.1, ih.1⟩, by rw [List.flatMap_cons, hx.2, ih.2]⟩
  · rintro ⟨hp, rfl⟩
    induction xs with
    | nil => exact .nil
    | cons x xs ih =>
      obtain ⟨hx, hxs⟩ := List.forall_mem_cons.1 hp
      exact .cons ⟨hx, rfl⟩ (ih hxs)

theorem spells (h : Members (Spells P) xs tokens) :
    Spells (RowsOf P fun _ _ => True) xs tokens := by
  induction h with
  | nil => exact ⟨[], .nil, fun _ h => absurd h List.not_mem_nil, rfl⟩
  | cons hx _ ih =>
    obtain ⟨r, hP, hr, rfl⟩ := hx
    obtain ⟨rows, hrows, hall, rfl⟩ := ih
    refine ⟨r ++ rows, .cons hP trivial hrows, fun row hrow => ?_, (Row.tokens_append _ _).symm⟩
    exact (List.mem_append.1 hrow).elim (hr row) (hall row)

theorem of_rowsOf {F : α → List Row → Prop} {rows : List Row} (h : RowsOf P F xs rows)
    (hwell : ∀ r ∈ rows, r.IsWellFormed) : Members (Spells P) xs (Row.tokens rows) := by
  induction h with
  | nil => exact .nil
  | cons hx _ _ ih =>
    rw [Row.tokens_append]
    exact .cons ⟨_, hx, fun r hr => hwell r (List.mem_append_left _ hr), rfl⟩
      (ih fun r hr => hwell r (List.mem_append_right _ hr))

end Members

/-! ## The tokens of a tree are those of its rows -/

section Leaves

variable {greedy : Prop} {rows : List Row}

theorem Element.leaves_eq_tokens (e : Element) : e.leaves = Row.tokens e.rows := by
  cases e with
  | item i => exact (List.append_nil _).symm
  | list l =>
    rw [leaves, rows, ItemList.rows, Row.tokens_cons, Row.tokens, List.flatMap_map]
    rfl

theorem ElementGroup.Reads.leaves_perm {g : ElementGroup} (h : g.Reads greedy rows) :
    g.leaves.Perm (Row.tokens rows) := by
  obtain ⟨rest, h, rfl⟩ := h
  have hd : g.direction.toList.flatMap Direction.leaves =
      Row.tokens (g.direction.toList.map .direction) := by
    rw [Row.tokens, List.flatMap_map]
    rfl
  rw [leaves, List.append_assoc, Row.tokens_append, hd]
  exact (h.perm_tokens fun e _ he => he ▸ .of_eq e.leaves_eq_tokens).append_left _

theorem Block.Reads.leaves_perm {b : Block} (h : b.Reads greedy rows) :
    b.leaves.Perm (Row.tokens rows) := by
  obtain ⟨rest, h, rfl⟩ := h
  exact (RowsOf.perm_tokens (fun _ _ hg => hg.1.leaves_perm) h).append_left _

theorem BlockGroup.Reads.leaves_perm {g : BlockGroup} (h : g.Reads greedy rows) :
    g.leaves.Perm (Row.tokens rows) := by
  obtain ⟨rest, h, rfl⟩ := h
  have ha : (g.alignment.toList.flatMap Alignment.leaves).Perm
      (Row.tokens (g.alignment.toList.map .alignment)) := by
    -- an alignment has its commas after its names, and its row has them between
    cases g.alignment with
    | none => exact .refl _
    | some a => exact (a.leaves_perm_written).append_right []
  rw [leaves, List.append_assoc, Row.tokens_append]
  exact ha.append (h.perm_tokens fun _ _ hb => hb.leaves_perm)

theorem Page.Reads.leaves_perm {p : Page} (h : p.Reads greedy rows) :
    p.leaves.Perm (Row.tokens rows) := by
  obtain ⟨rest, h, rfl⟩ := h
  exact (RowsOf.perm_tokens (fun _ _ hg => hg.1.leaves_perm) h).append_left _

/-- Comments aside, the tokens of a scene are those of its rows. -/
theorem Scene.Reads.leaves_perm {s : Scene} (h : s.Reads greedy rows) :
    (s.pages.flatMap Page.leaves ++ s.lineEnds).Perm (Row.tokens rows) :=
  h.perm_tokens fun _ _ hp => hp.leaves_perm

end Leaves

end Wireframe
