import Mathlib.Data.List.Forall2
import Wireframe.Proofs.Scene.Reprinted

/-!
# What the lines of a printed scene show

Each line of a printed scene is blank, or it shows a comment, a node or the second line of a list's
head (`PrintedLine`). The direction of an alignment is shown on the line of the alignment. All nodes
that can be shown are, in the order of the walk (`Scene.shows`), and every comment comes after the
lines of the nodes that start on its line or above it, and before the lines of those that start
below it (`exists_printed`).
-/

namespace Wireframe

/-! ## Printed lines -/

namespace Node

/-- Whether a node is shown on a line. -/
def isShown (n : Node) : Bool :=
  n.rule ∈ [.page, .alignment, .block, .direction, .list, .item]

/-- The line that shows a node; a list may have a second one. -/
def line : Node → String
  | page p => p.line
  | alignment a => a.line
  | block b => b.line
  | direction d => d.line
  | list l =>
    joinParts (if l.headerEnd.isSome then l.titleParts else l.titleParts ++ [l.consistsOf.squeezed])
  | item i => i.line
  | _ => ""

/-- The nodes that are shown with a node on its line. -/
def onLine : Node → List Node
  | alignment a => [alignment a, direction a.direction]
  | n => [n]

end Node

namespace Step

/-- The node that a step enters, if it is shown on a line. -/
def shown? : Step → Option Node
  | enter n => if n.isShown then some n else none
  | leave _ => none

end Step

/-- A line of a printed scene, by what it shows. -/
inductive PrintedLine
  | blank
  | comment (level : Nat) (comment : Token)
  | node (level : Nat) (node : Node)
  /-- The second line of the head of a list. -/
  | consistsOf (level : Nat) (list : ItemList)

namespace PrintedLine

/-- A line as it is printed. -/
def text : PrintedLine → String
  | blank => ""
  | comment level c => Printer.indentation level ++ c.trimmed
  | node level n => Printer.indentation level ++ n.line
  | consistsOf level l => Printer.indentation level ++ l.consistsOf.squeezed

/-- The nodes that a line shows. -/
def nodes : PrintedLine → List Node
  | node _ n => n.onLine
  | _ => []

/-- The nodes that a line is about: those that it shows, or the list whose head it ends. -/
def subjects : PrintedLine → List Node
  | consistsOf _ l => [.list l]
  | l => l.nodes

/-- The comment that a line shows. -/
def comment? : PrintedLine → Option Token
  | comment _ c => some c
  | _ => none

/-- A line does not show a comment and be about a node. -/
theorem comment?_eq_none {l : PrintedLine} {n : Node} (h : n ∈ l.subjects) : l.comment? = none := by
  cases l with
  | comment level c => exact absurd h List.not_mem_nil
  | _ => rfl

/-- The lines that are not comments show all nodes. -/
theorem flatMap_nodes_filter (lines : List PrintedLine) :
    (lines.filter (·.comment?.isNone)).flatMap nodes = lines.flatMap nodes := by
  induction lines with
  | nil => rfl
  | cons l lines ih =>
    rw [List.flatMap_cons, ← ih]
    cases l <;> rfl

/-- A line that comes before another one, with a comment and a node where these belong. -/
structure Precedes (l l' : PrintedLine) : Prop where
  comment : ∀ c ∈ l.comment?, ∀ n ∈ l'.subjects, c.line < n.range.start.line
  node : ∀ n ∈ l.subjects, ∀ c ∈ l'.comment?, n.range.start.line ≤ c.line

end PrintedLine

/-- The comment that a line of a sheet is. -/
def SheetLine.comment? : SheetLine → Option Token
  | comment _ c => some c
  | words .. => none

/-! ## The lines of a passage -/

/-- The lines that show a passage. -/
structure Passage.IsShownBy (p : Passage) (lines : List PrintedLine) : Prop where
  texts : p.texts = lines.map PrintedLine.text
  sheet : (p.rows.flatMap LaidRow.lines).map SheetLine.comment? = lines.map PrintedLine.comment?
  comments : ∀ l ∈ lines, l.comment? = none
  /-- Nodes are only shown where there are words, and start on the line of the passage. -/
  subjects : ∀ l ∈ lines, ∀ n ∈ l.subjects, n.range.start.line = p.line ∧ p.words ≠ []

/-- Passages show the nodes that some steps of a walk enter. -/
def Shows (passages : List Passage) (steps : List Step) : Prop :=
  ∃ groups, List.Forall₂ Passage.IsShownBy passages groups ∧
    groups.flatten.flatMap PrintedLine.nodes = steps.filterMap Step.shown?

namespace Shows

variable {passages passages' : List Passage} {steps steps' : List Step}

theorem append (h : Shows passages steps) (h' : Shows passages' steps') :
    Shows (passages ++ passages') (steps ++ steps') := by
  obtain ⟨groups, hgroups, hnodes⟩ := h
  obtain ⟨groups', hgroups', hnodes'⟩ := h'
  refine ⟨groups ++ groups', List.rel_append hgroups hgroups', ?_⟩
  rw [List.flatten_append, List.flatMap_append, List.filterMap_append, hnodes, hnodes']

/-- Steps that enter nothing that is shown. -/
theorem nil (h : steps.filterMap Step.shown? = []) : Shows [] steps :=
  ⟨[], .nil, h.symm⟩

theorem flatMap {α : Type} {f : α → List Passage} {walk : α → List Step} {xs : List α}
    (h : ∀ x ∈ xs, Shows (f x) (walk x)) : Shows (xs.flatMap f) (xs.flatMap walk) := by
  induction xs with
  | nil => exact .nil rfl
  | cons x xs ih =>
    obtain ⟨hx, hxs⟩ := List.forall_mem_cons.1 h
    exact hx.append (ih hxs)

/-- A node that is not shown is entered. -/
theorem enter {n : Node} (hn : n.isShown = false) (h : Shows passages steps) :
    Shows passages (.enter n :: steps) := by
  have hfirst : Step.shown? (.enter n) = none := if_neg (Bool.eq_false_iff.1 hn)
  have hnone : Shows [] [Step.enter n] := .nil (by simp [hfirst])
  exact hnone.append h

/-- A node is left. -/
theorem leave {n : Node} (h : Shows passages steps) : Shows passages (steps ++ [.leave n]) := by
  have hnone : Shows [] [Step.leave n] := .nil rfl
  have hlast := h.append hnone
  rwa [List.append_nil] at hlast

/-- One passage. -/
theorem single {p : Passage} {lines : List PrintedLine} (h : p.IsShownBy lines)
    (hnodes : lines.flatMap PrintedLine.nodes = steps.filterMap Step.shown?) : Shows [p] steps :=
  ⟨[lines], .cons h .nil, by simpa using hnodes⟩

end Shows

/-! ## The passages of a scene -/

section Walk

theorem filterMap_shown?_flatMap {α : Type} {walk : α → List Step}
    (h : ∀ x, (walk x).filterMap Step.shown? = []) (xs : List α) :
    (xs.flatMap walk).filterMap Step.shown? = [] := by
  rw [List.filterMap_flatMap]
  exact List.flatMap_eq_nil_iff.2 fun x _ => h x

theorem filterMap_shown?_values (title : Option Value) :
    (title.toList.flatMap Value.walk).filterMap Step.shown? = [] :=
  filterMap_shown?_flatMap (fun _ => rfl) _

theorem Item.filterMap_shown? (i : Item) : i.walk.filterMap Step.shown? = [.item i] := by
  obtain ⟨⟨_, _, _ | v⟩ | l, _⟩ := i <;> rfl

theorem Direction.filterMap_shown? (d : Direction) :
    d.walk.filterMap Step.shown? = [.direction d] := by
  obtain ⟨_ | c, _, _, _⟩ := d <;> rfl

theorem Alignment.filterMap_shown? (a : Alignment) :
    a.walk.filterMap Step.shown? = [.alignment a, .direction a.direction] := by
  rw [walk, List.cons_append, List.filterMap_cons, List.filterMap_append,
    filterMap_shown?_flatMap (fun _ => rfl), Direction.filterMap_shown?]
  rfl

end Walk

/-- The passage of a node is shown by lines that show the node and what is on its line. -/
theorem Passage.isShownBy_ofNode {n : Node} {level : Nat} {rows : List LaidRow}
    {lines : List PrintedLine} (htexts : (ofNode level n rows).texts = lines.map PrintedLine.text)
    (hsheet : (rows.flatMap LaidRow.lines).map SheetLine.comment? =
      lines.map PrintedLine.comment?)
    (hcomments : ∀ l ∈ lines, l.comment? = none)
    (hsubjects : ∀ l ∈ lines, ∀ m ∈ l.subjects, m ∈ n.onLine)
    (hstart : ∀ m ∈ n.onLine, m.range.start.line = n.range.start.line)
    {r : LaidRow} (hr : r ∈ rows) (hne : ∀ e, r.row ≠ .blank e) :
    (ofNode level n rows).IsShownBy lines where
  texts := htexts
  sheet := hsheet
  comments := hcomments
  subjects l hl m hm := by
    refine ⟨hstart m (hsubjects l hl m hm), fun hnil => ?_⟩
    obtain ⟨t, words, -, hwords, -⟩ := exists_head hne
    have hrow : r.row.words = [] := List.flatMap_eq_nil_iff.1 hnil r hr
    rw [hwords] at hrow
    cases hrow

/-- A passage of one line. -/
theorem Passage.isShownBy_line {n : Node} {level : Nat} {r : Row} {l : WordLine}
    (htexts : r.texts level = [Printer.indentation level ++ n.line]) (hlines : r.lines = [l])
    (hstart : ∀ m ∈ n.onLine, m.range.start.line = n.range.start.line)
    (hne : ∀ e, r ≠ .blank e) : (ofNode level n [⟨level, r⟩]).IsShownBy [.node level n] := by
  refine isShownBy_ofNode ?_ ?_ (List.forall_mem_singleton.2 rfl)
    (List.forall_mem_singleton.2 fun _ hm => hm) hstart List.mem_cons_self hne
  · exact (List.append_nil _).trans htexts
  · simp [LaidRow.lines, hlines, SheetLine.comment?, PrintedLine.comment?]

theorem Item.shows (level : Nat) (afterList : Bool) (i : Item) :
    Shows [i.passage level afterList] i.walk := by
  have hshown : (i.passage level afterList).IsShownBy
      ((if afterList then [.blank] else []) ++ [.node level (.item i)]) := by
    refine Passage.isShownBy_ofNode ?_ ?_ ?_ ?_ (List.forall_mem_singleton.2 rfl)
      (List.mem_append_right _ List.mem_cons_self) nofun
    · cases afterList <;> rfl
    · cases afterList <;> rfl
    · cases afterList <;> simp [PrintedLine.comment?]
    · cases afterList <;> simp [PrintedLine.subjects, PrintedLine.nodes]
  refine .single hshown ?_
  rw [i.filterMap_shown?]
  cases afterList <;> rfl

theorem ItemList.shows_head (level : Nat) (l : ItemList) :
    Shows [.ofNode level (.list l) [⟨level, l.headRow⟩]]
      (.enter (.list l) :: l.title.toList.flatMap Value.walk) := by
  have hnodes : [Node.list l] =
      (Step.enter (.list l) :: l.title.toList.flatMap Value.walk).filterMap Step.shown? := by
    rw [List.filterMap_cons, filterMap_shown?_values]
    rfl
  have hstart : ∀ m ∈ (Node.list l).onLine, m.range.start.line = (Node.list l).range.start.line :=
    List.forall_mem_singleton.2 rfl
  obtain ⟨k, title, _ | headerEnd, c, e, items⟩ := l
  · exact .single (Passage.isShownBy_line rfl rfl hstart nofun) hnodes
  · let l : ItemList := ⟨k, title, some headerEnd, c, e, items⟩
    have hshown : (Passage.ofNode level (.list l) [⟨level, l.headRow⟩]).IsShownBy
        [.node level (.list l), .consistsOf (level + 1) l] := by
      refine Passage.isShownBy_ofNode rfl rfl ?_ ?_ hstart List.mem_cons_self nofun
      · exact List.forall_mem_cons.2 ⟨rfl, List.forall_mem_singleton.2 rfl⟩
      · exact List.forall_mem_cons.2 ⟨fun _ hm => hm, List.forall_mem_singleton.2 fun _ hm => hm⟩
    exact .single hshown hnodes

theorem ItemList.shows (level : Nat) (l : ItemList) : Shows (l.passages level) l.walk := by
  have hitems : Shows (l.items.map (Item.passage (level + l.depth) false))
      (l.items.flatMap Item.walk) := by
    rw [List.map_eq_flatMap]
    exact .flatMap fun i _ => i.shows _ _
  exact ((l.shows_head level).append hitems).leave

theorem ElementGroup.shows_passagesOf (level : Nat) (afterList : Bool) (entries : List Element) :
    Shows (passagesOf level afterList entries) (entries.flatMap Element.walk) := by
  induction entries generalizing afterList with
  | nil => exact .nil rfl
  | cons e entries ih =>
    cases e with
    | item i => exact (i.shows level afterList).append (ih false)
    | list l => exact (l.shows level).append (ih true)

theorem Direction.shows (level : Nat) (d : Direction) :
    Shows [.ofNode level (.direction d) [⟨level, .direction d⟩]] d.walk :=
  .single (Passage.isShownBy_line rfl rfl (List.forall_mem_singleton.2 rfl) nofun)
    d.filterMap_shown?.symm

/-- A group with nothing to show is shown by a blank line. -/
theorem Shows.blank {steps : List Step} (h : steps.filterMap Step.shown? = []) :
    Shows [.blank] steps := by
  have hshown : Passage.blank.IsShownBy [.blank] :=
    ⟨rfl, rfl, List.forall_mem_singleton.2 rfl, List.forall_mem_singleton.2 (List.forall_mem_nil _)⟩
  exact .single hshown h.symm

theorem ElementGroup.shows (level : Nat) (g : ElementGroup) : Shows (g.passages level) g.walk := by
  refine .leave (.enter rfl ?_)
  obtain ⟨_ | d, entries, lineEnds⟩ := g
  · cases entries with
    | nil => exact .blank rfl
    | cons e entries => exact shows_passagesOf level false (e :: entries)
  · have hdirection := d.shows level
    rw [← List.flatMap_singleton (f := Direction.walk)] at hdirection
    exact hdirection.append (shows_passagesOf level false entries)

/-- The first line of a block or a page. -/
theorem Shows.head {n : Node} {level : Nat} {r : Row} {l : WordLine} {title : Option Value}
    (htexts : r.texts level = [Printer.indentation level ++ n.line]) (hlines : r.lines = [l])
    (hnode : n.onLine = [n]) (hshown : n.isShown) (hne : ∀ e, r ≠ .blank e) :
    Shows [.ofNode level n [⟨level, r⟩]] (.enter n :: title.toList.flatMap Value.walk) := by
  refine .single (Passage.isShownBy_line htexts hlines (fun m hm => ?_) hne) ?_
  · rw [hnode, List.mem_singleton] at hm
    rw [hm]
  · have hfirst : Step.shown? (.enter n) = some n := if_pos hshown
    rw [List.filterMap_cons, hfirst, filterMap_shown?_values]
    exact (List.append_nil _).trans hnode

theorem Block.shows (b : Block) : Shows b.passages b.walk := by
  have hhead : Shows [.ofNode 0 (.block b) [⟨0, b.headRow⟩]]
      (.enter (.block b) :: b.title.toList.flatMap Value.walk) :=
    .head rfl rfl rfl rfl nofun
  exact (hhead.append (.flatMap fun g _ => g.shows 1)).leave

/-- The direction of an alignment starts on the line of the alignment. -/
def Alignment.IsJoined (a : Alignment) : Prop :=
  (Node.direction a.direction).range.start.line = (Node.alignment a).range.start.line

theorem Alignment.shows {a : Alignment} (h : a.IsJoined) :
    Shows [.ofNode 0 (.alignment a) [⟨0, .alignment a⟩]] a.walk :=
  .single (Passage.isShownBy_line rfl rfl
    (List.forall_mem_cons.2 ⟨rfl, List.forall_mem_singleton.2 h⟩) nofun) a.filterMap_shown?.symm

theorem BlockGroup.shows {g : BlockGroup} (h : ∀ a ∈ g.alignment, a.IsJoined) :
    Shows g.passages g.walk := by
  refine .leave (.enter rfl ?_)
  have hblocks (blocks : List Block) :
      Shows (blocks.flatMap Block.passages) (blocks.flatMap Block.walk) :=
    .flatMap fun b _ => b.shows
  obtain ⟨_ | a, blocks, lineEnds⟩ := g
  · cases blocks with
    | nil => exact .blank rfl
    | cons b blocks => exact hblocks (b :: blocks)
  · have halignment := Alignment.shows (h a rfl)
    rw [← List.flatMap_singleton (f := Alignment.walk)] at halignment
    exact halignment.append (hblocks blocks)

theorem Page.shows {p : Page} (h : ∀ g ∈ p.groups, ∀ a ∈ g.alignment, a.IsJoined) :
    Shows p.passages p.walk := by
  have hhead : Shows [p.headPassage]
      (.enter (.page p) :: (some p.title).toList.flatMap Value.walk) :=
    .head rfl rfl rfl rfl nofun
  exact (hhead.append (.flatMap fun g hg => BlockGroup.shows (h g hg))).leave

/-- The passages of a scene show the nodes that are shown on a line, in the order of the walk. -/
theorem Scene.shows {s : Scene}
    (h : ∀ p ∈ s.pages, ∀ g ∈ p.groups, ∀ a ∈ g.alignment, a.IsJoined) :
    Shows s.passages s.walk := by
  have hpages : Shows s.passages (s.pages.flatMap Page.walk) :=
    .flatMap fun p hp => Page.shows (h p hp)
  have hcomments : Shows [] (s.comments.flatMap Comment.walk) :=
    .nil (filterMap_shown?_flatMap (fun _ => rfl) _)
  have hall := (Shows.enter (n := .scene s) rfl hpages).append hcomments
  rw [List.append_nil] at hall
  exact hall.leave

/-! ## Comments between the lines -/

section Arrange

variable {comments : List Token} {passages : List Passage} {groups : List (List PrintedLine)}

/-- What is left of comments after those above a line is not above it. -/
theorem le_of_mem_dropWhile {n : Nat} (h : comments.Pairwise fun c d => c.line ≤ d.line) :
    ∀ c ∈ comments.dropWhile (·.line < n), n ≤ c.line := by
  induction comments with
  | nil => exact List.forall_mem_nil _
  | cons c comments ih =>
    obtain ⟨hc, hcomments⟩ := List.pairwise_cons.1 h
    rw [List.dropWhile_cons]
    split
    · exact ih hcomments
    · next hlt =>
      have hle : n ≤ c.line := by simpa using hlt
      exact List.forall_mem_cons.2 ⟨hle, fun d hd => Nat.le_trans hle (hc d hd)⟩

/-- The nodes that passages show start on their lines. -/
theorem forall_subjects {q : Node → Prop} (h : List.Forall₂ Passage.IsShownBy passages groups)
    (hq : ∀ p ∈ passages, p.words ≠ [] → ∀ n : Node, n.range.start.line = p.line → q n) :
    ∀ l ∈ groups.flatten, ∀ n ∈ l.subjects, q n := by
  induction h with
  | nil => exact List.forall_mem_nil _
  | @cons p lines passages groups hp _ ih =>
    obtain ⟨hfirst, hrest⟩ := List.forall_mem_cons.1 hq
    rw [List.flatten_cons]
    refine List.forall_mem_append.2 ⟨fun l hl n hn => ?_, ih hrest⟩
    obtain ⟨hline, hwords⟩ := hp.subjects l hl n hn
    exact hfirst hwords n hline

/-- The lines of comments and passages: each comment is after the nodes that start on its line or
    above it, and before those that start below it. -/
structure IsPrinted (comments : List Token) (passages : List Passage) (shown : List PrintedLine)
    (lines : List PrintedLine) : Prop where
  texts : arrange commentLine LaidRow.texts comments passages = lines.map PrintedLine.text
  sheet : (arrange .comment LaidRow.lines comments passages).map SheetLine.comment? =
    lines.map PrintedLine.comment?
  comments : lines.filterMap PrintedLine.comment? = comments
  shown : lines.filter (·.comment?.isNone) = shown
  precedes : lines.Pairwise PrintedLine.Precedes

theorem PrintedLine.pairwise_comments (level : Nat) (comments : List Token) :
    (comments.map (PrintedLine.comment level)).Pairwise PrintedLine.Precedes :=
  List.pairwise_map.2 (List.pairwise_of_forall fun _ _ =>
    ⟨fun _ _ => List.forall_mem_nil _, List.forall_mem_nil _⟩)

/-- Comments that come last. -/
theorem isPrinted_comments (comments : List Token) :
    IsPrinted comments [] [] (comments.map (.comment 0)) where
  texts := by simp [arrange, commentLine, PrintedLine.text, Function.comp_def]
  sheet := by simp [arrange, SheetLine.comment?, PrintedLine.comment?, Function.comp_def]
  comments := by simp [Function.comp_def, PrintedLine.comment?]
  shown := by simp [PrintedLine.comment?]
  precedes := PrintedLine.pairwise_comments 0 comments

/-- The comments above a passage come before its lines, and these before the others. -/
theorem IsPrinted.pairwise_cons {p : Passage} {own shown rest : List PrintedLine}
    (hown : p.IsShownBy own) (hlate : ∀ c ∈ comments.dropWhile (·.line < p.line), p.line ≤ c.line)
    (hbelow : ∀ l ∈ shown, ∀ n ∈ l.subjects, p.line ≤ n.range.start.line)
    (hrest : IsPrinted (comments.dropWhile (·.line < p.line)) passages shown rest) :
    ((comments.takeWhile (·.line < p.line)).map (PrintedLine.comment p.level) ++
      (own ++ rest)).Pairwise PrintedLine.Precedes := by
  have hcomment {l : PrintedLine} (hl : l ∈ rest) : ∀ c ∈ l.comment?, p.line ≤ c.line :=
    fun c hc => hlate c (hrest.comments ▸ List.mem_filterMap.2 ⟨l, hl, hc⟩)
  have hnode {l : PrintedLine} (hl : l ∈ own) : ∀ n ∈ l.subjects, n.range.start.line = p.line :=
    fun n hn => (hown.subjects l hl n hn).1
  have hnone {l : PrintedLine} (hl : l ∈ own) : ∀ c, c ∉ l.comment? := by
    simp [hown.comments l hl]
  -- three groups of lines, in this order: the comments above, the own lines, which have no
  -- comments, and what belongs after them
  refine List.pairwise_append.2 ⟨PrintedLine.pairwise_comments p.level _,
    List.pairwise_append.2 ⟨?_, hrest.precedes, ?_⟩, ?_⟩
  · exact List.pairwise_of_forall_mem_list fun l hl l' hl' =>
      ⟨fun c hc => absurd hc (hnone hl c), fun n _ c hc => absurd hc (hnone hl' c)⟩
  · exact fun l hl l' hl' => ⟨fun c hc => absurd hc (hnone hl c),
      fun n hn c hc => (hnode hl n hn).symm ▸ hcomment hl' c hc⟩
  · rintro l hl l' hl'
    obtain ⟨c, hc, rfl⟩ := List.mem_map.1 hl
    have hlt : c.line < p.line := by simpa using List.mem_takeWhile_imp hc
    refine ⟨fun d hd n hn => ?_, List.forall_mem_nil _⟩
    obtain rfl : c = d := Option.some.inj hd
    rcases List.mem_append.1 hl' with hl' | hl'
    · exact hnode hl' n hn ▸ hlt
    · have hshown : l' ∈ shown := by
        rw [← hrest.shown, List.mem_filter, PrintedLine.comment?_eq_none hn]
        exact ⟨hl', rfl⟩
      exact Nat.lt_of_lt_of_le hlt (hbelow l' hshown n hn)

/-- The comments above a passage, its lines, and others that belong after it. -/
theorem IsPrinted.cons {p : Passage} {own shown rest : List PrintedLine} (hown : p.IsShownBy own)
    (hlate : ∀ c ∈ comments.dropWhile (·.line < p.line), p.line ≤ c.line)
    (hbelow : ∀ l ∈ shown, ∀ n ∈ l.subjects, p.line ≤ n.range.start.line)
    (hrest : IsPrinted (comments.dropWhile (·.line < p.line)) passages shown rest) :
    IsPrinted comments (p :: passages) (own ++ shown)
      ((comments.takeWhile (·.line < p.line)).map (.comment p.level) ++ (own ++ rest)) where
  texts := by
    rw [arrange, hrest.texts, ← Passage.texts, hown.texts]
    simp [commentLine, PrintedLine.text, Function.comp_def]
  sheet := by
    rw [arrange, List.map_append, List.map_append, hrest.sheet, hown.sheet]
    simp [SheetLine.comment?, PrintedLine.comment?, Function.comp_def]
  comments := by
    have hnone : own.filterMap PrintedLine.comment? = [] :=
      List.filterMap_eq_nil_iff.2 hown.comments
    simp [hrest.comments, hnone, Function.comp_def, PrintedLine.comment?]
  shown := by
    have hall : own.filter (·.comment?.isNone) = own :=
      List.filter_eq_self.2 fun l hl => by rw [hown.comments l hl]; rfl
    have hnone : ((comments.takeWhile (·.line < p.line)).map (.comment p.level)).filter
        (fun l : PrintedLine => l.comment?.isNone) = [] :=
      List.filter_eq_nil_iff.2 (List.forall_mem_map.2 fun _ _ => Bool.false_ne_true)
    rw [List.filter_append, List.filter_append, hnone, hall, hrest.shown, List.nil_append]
  precedes := hrest.pairwise_cons hown hlate hbelow

/-- Where passages and comments go down the lines of the source, comments can be put in place. -/
theorem exists_printed (h : List.Forall₂ Passage.IsShownBy passages groups)
    (hcomments : comments.Pairwise fun c d => c.line ≤ d.line)
    (hpassages : passages.Pairwise fun p q => q.words ≠ [] → p.line ≤ q.line) :
    ∃ lines, IsPrinted comments passages groups.flatten lines := by
  induction h generalizing comments with
  | nil => exact ⟨_, isPrinted_comments comments⟩
  | @cons p own passages groups hown hrest ih =>
    obtain ⟨hfirst, hpassages⟩ := List.pairwise_cons.1 hpassages
    obtain ⟨rest, hlines⟩ := ih (hcomments.sublist (List.dropWhile_sublist _)) hpassages
    refine ⟨_, .cons hown (le_of_mem_dropWhile hcomments) ?_ hlines⟩
    exact forall_subjects hrest fun q hq hwords n hline => hline ▸ hfirst q hq hwords

end Arrange

end Wireframe
