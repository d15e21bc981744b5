import Mathlib.Data.List.TakeDrop
import Wireframe.Proofs.Scene.Passage

/-!
# The lines of a layout

The printer follows a walk with flags that tell what came before: whether it is in an alignment, how
deep in lists, right after one. What it prints are just the passages of the scene, each after the
comments that stand above it in the source (`Scene.layout_eq`). So the lines that show the rows of
the layout come one after the other, with all the comments between them (`Scene.exists_layout`).

Each part of the walk leaves the flags as they were, but for that which tells of a list just closed
(`Printer.Emits`).
-/

namespace Wireframe

/-! ## Arranging comments and passages -/

/-- The line that shows a comment. -/
def commentLine (level : Nat) (c : Token) : String :=
  Printer.indentation level ++ c.trimmed

/-- What is made of some passages row by row, with what is made of the comments before each and of
    the others after them. -/
def arrange {α : Type} (note : Nat → Token → α) (lay : LaidRow → List α) :
    List Token → List Passage → List α
  | comments, [] => comments.map (note 0)
  | comments, p :: passages =>
    (comments.takeWhile (·.line < p.line)).map (note p.level) ++ p.rows.flatMap lay ++
      arrange note lay (comments.dropWhile (·.line < p.line)) passages

section Arrange

variable {α β : Type} {note : Nat → Token → α} {lay : LaidRow → List α} {comments : List Token}
  {passages : List Passage}

/-- What holds of all that is made of comments and of rows holds of all that
    they are arranged to. -/
theorem forall_mem_arrange {p : α → Prop} (hnote : ∀ level, ∀ c ∈ comments, p (note level c))
    (hlay : ∀ x ∈ passages, ∀ r ∈ x.rows, ∀ a ∈ lay r, p a) :
    ∀ a ∈ arrange note lay comments passages, p a := by
  induction passages generalizing comments with
  | nil => exact List.forall_mem_map.2 fun c hc => hnote 0 c hc
  | cons x passages ih =>
    obtain ⟨hx, hpassages⟩ := List.forall_mem_cons.1 hlay
    refine List.forall_mem_append.2 ⟨List.forall_mem_append.2 ⟨List.forall_mem_map.2 fun c hc => ?_,
      List.forall_mem_flatMap.2 hx⟩, ih (fun level c hc => ?_) hpassages⟩
    · exact hnote x.level c (List.takeWhile_subset _ hc)
    · exact hnote level c (List.dropWhile_subset _ hc)

/-- Changing what is made of comments and rows changes what they are arranged to. -/
theorem arrange_eq_map {f : α → β} {note' : Nat → Token → β} {lay' : LaidRow → List β}
    (hnote : ∀ level c, note' level c = f (note level c))
    (hlay : ∀ x ∈ passages, ∀ r ∈ x.rows, lay' r = (lay r).map f) :
    arrange note' lay' comments passages = (arrange note lay comments passages).map f := by
  induction passages generalizing comments with
  | nil =>
    rw [arrange, arrange, List.map_map]
    exact List.map_congr_left fun c _ => hnote 0 c
  | cons x passages ih =>
    obtain ⟨hx, hpassages⟩ := List.forall_mem_cons.1 hlay
    rw [arrange, arrange, ih hpassages, List.map_append, List.map_append,
      List.map_map, List.map_flatMap]
    congr 2
    · exact List.map_congr_left fun c _ => hnote x.level c
    · exact List.flatMap_congr hx

/-- What is only made of rows is made of them in order. -/
theorem flatMap_arrange_rows {g : α → List β} (h : ∀ level, ∀ c ∈ comments, g (note level c) = []) :
    (arrange note lay comments passages).flatMap g =
      passages.flatMap fun p => p.rows.flatMap fun r => (lay r).flatMap g := by
  have hnone {level : Nat} {cs : List Token} (hcs : ∀ c ∈ cs, c ∈ comments) :
      (cs.map (note level)).flatMap g = [] := by
    rw [List.flatMap_map, List.flatMap_eq_nil_iff]
    exact fun c hc => h level c (hcs c hc)
  induction passages generalizing comments with
  | nil => exact hnone fun _ hc => hc
  | cons p passages ih =>
    have hlate : ∀ c ∈ comments.dropWhile (·.line < p.line), c ∈ comments :=
      List.dropWhile_subset _
    have hrest := ih (fun level c hc => h level c (hlate c hc))
      fun hcs => hnone fun c hc => hlate c (hcs c hc)
    rw [arrange, List.flatMap_append, List.flatMap_append, hrest,
      hnone fun c hc => List.takeWhile_subset _ hc, List.flatMap_cons, List.flatMap_assoc]
    rfl

/-- What is only made of comments is made of them in order. -/
theorem flatMap_arrange_comments {g : α → List β} {f : Token → List β}
    (hnote : ∀ level, ∀ c ∈ comments, g (note level c) = f c) (hlay : ∀ r, ∀ a ∈ lay r, g a = []) :
    (arrange note lay comments passages).flatMap g = comments.flatMap f := by
  induction passages generalizing comments with
  | nil =>
    rw [arrange, List.flatMap_map]
    exact List.flatMap_congr fun c hc => hnote 0 c hc
  | cons p passages ih =>
    have hrows : (p.rows.flatMap lay).flatMap g = [] := by
      rw [List.flatMap_eq_nil_iff]
      intro a ha
      obtain ⟨r, -, ha⟩ := List.mem_flatMap.1 ha
      exact hlay r a ha
    have hbefore : ((comments.takeWhile (·.line < p.line)).map (note p.level)).flatMap g =
        (comments.takeWhile (·.line < p.line)).flatMap f := by
      rw [List.flatMap_map]
      exact List.flatMap_congr fun c hc => hnote p.level c (List.takeWhile_subset _ hc)
    rw [arrange, List.flatMap_append, List.flatMap_append, hrows, hbefore,
      ih fun level c hc => hnote level c (List.dropWhile_subset _ hc), List.append_nil,
      ← List.flatMap_append, List.takeWhile_append_dropWhile]

end Arrange

/-- Lines with others for comments between them, which can be indented in any way. -/
inductive Commented : List Token → List String → List String → Prop
  | nil : Commented [] [] []
  | comment {comments : List Token} {texts lines : List String} (c : Token) (level : Nat) :
    Commented comments texts lines →
      Commented (c :: comments) texts ((Printer.indentation level ++ c.trimmed) :: lines)
  | line {comments : List Token} {texts lines : List String} (text : String) :
    Commented comments texts lines → Commented comments (text :: texts) (text :: lines)

namespace Commented

variable {comments comments' : List Token} {texts texts' lines lines' : List String}

theorem append (h : Commented comments texts lines) (h' : Commented comments' texts' lines') :
    Commented (comments ++ comments') (texts ++ texts') (lines ++ lines') := by
  induction h with
  | nil => exact h'
  | comment c level _ ih => exact .comment c level ih
  | line text _ ih => exact .line text ih

theorem of_comments (level : Nat) (comments : List Token) :
    Commented comments [] (comments.map (commentLine level)) := by
  induction comments with
  | nil => exact .nil
  | cons c comments ih => exact .comment c level ih

theorem of_texts (texts : List String) : Commented [] texts texts := by
  induction texts with
  | nil => exact .nil
  | cons text texts ih => exact .line text ih

/-- Where there are no comments, there are no other lines. -/
theorem eq_of_nil (h : Commented [] texts lines) : lines = texts := by
  generalize hcomments : [] = comments at h
  induction h with
  | nil => rfl
  | comment => cases hcomments
  | line text _ ih => rw [ih hcomments]

end Commented

/-- Every comment is put somewhere between the lines. -/
theorem commented_arrange (comments : List Token) (passages : List Passage) :
    Commented comments (passages.flatMap Passage.texts)
      (arrange commentLine LaidRow.texts comments passages) := by
  induction passages generalizing comments with
  | nil => exact .of_comments 0 comments
  | cons p passages ih =>
    have hfirst := (Commented.of_comments p.level (comments.takeWhile (·.line < p.line))).append
      (.of_texts p.texts)
    have hall := hfirst.append (ih (comments.dropWhile (·.line < p.line)))
    rw [List.append_nil, List.nil_append, List.takeWhile_append_dropWhile] at hall
    exact hall

/-! ## Before a node is left -/

/-- The walk through a list, up to where it is left. -/
def ItemList.inside (l : ItemList) : List Step :=
  .enter (.list l) :: l.title.toList.flatMap Value.walk ++ l.items.flatMap Item.walk

theorem ItemList.walk_eq_inside (l : ItemList) : l.walk = l.inside ++ [.leave (.list l)] := rfl

/-- The walk through a block, up to where it is left. -/
def Block.inside (b : Block) : List Step :=
  .enter (.block b) :: b.title.toList.flatMap Value.walk ++ b.groups.flatMap ElementGroup.walk

theorem Block.walk_eq_inside (b : Block) : b.walk = b.inside ++ [.leave (.block b)] := rfl

namespace Printer

variable {p q r : Printer} {passages passages' : List Passage}

/-- Prints a passage, after the comments above it; what is printed already comes last. -/
def putPassage (printed : List String × List Token) (x : Passage) : List String × List Token :=
  (((printed.2.takeWhile (·.line < x.line)).map (commentLine x.level) ++ x.texts).reverse ++
      printed.1,
    printed.2.dropWhile (·.line < x.line))

/-- A printer that prints some passages. -/
def Writes (p : Printer) (passages : List Passage) (q : Printer) : Prop :=
  (q.lines, q.comments) = passages.foldl putPassage (p.lines, p.comments)

theorem Writes.trans (h : Writes p passages q) (h' : Writes q passages' r) :
    Writes p (passages ++ passages') r := by
  rw [Writes, List.foldl_append, ← h]
  exact h'

theorem foldl_putPassage (passages : List Passage) (lines : List String) (comments : List Token) :
    (passages.foldl putPassage (lines, comments)).2.reverse.map (commentLine 0) ++
        (passages.foldl putPassage (lines, comments)).1 =
      (arrange commentLine LaidRow.texts comments passages).reverse ++ lines := by
  induction passages generalizing lines comments with
  | nil => rw [List.foldl_nil, arrange, List.map_reverse]
  | cons x passages ih =>
    rw [List.foldl_cons, putPassage, ih, arrange, Passage.texts]
    simp only [List.reverse_append, List.append_assoc]

/-! ## Comments -/

theorem foldl_writeLine (comments : List Token) (p : Printer) :
    comments.foldl (fun q c => q.writeLine c.trimmed) p =
      { p with lines := (comments.map (commentLine p.indent)).reverse ++ p.lines } := by
  induction comments generalizing p with
  | nil => rfl
  | cons c comments ih => rw [List.foldl_cons, ih]; simp [writeLine, commentLine]

/-- Before a line, the comments above it are printed. -/
theorem startLine_eq (n : Node) (p : Printer) : p.startLine n = { p with
    lines := ((p.comments.takeWhile (·.line < n.range.start.line)).map
      (commentLine p.indent)).reverse ++ p.lines
    comments := p.comments.dropWhile (·.line < n.range.start.line) } := by
  rw [startLine, flushBefore, List.span_eq_takeWhile_dropWhile]
  exact foldl_writeLine _ _

/-- The passage of a node is printed line by line, once the printer is ready for it. -/
theorem writes_ofNode {n : Node} {rows : List LaidRow}
    (hlines : q.lines = (rows.flatMap LaidRow.texts).reverse ++ (p.startLine n).lines)
    (hcomments : q.comments = (p.startLine n).comments) :
    Writes p [.ofNode p.indent n rows] q := by
  rw [startLine_eq] at hlines hcomments
  rw [Writes, List.foldl_cons, List.foldl_nil, putPassage, hlines, hcomments, List.reverse_append,
    List.append_assoc]
  rfl

theorem writes_blank (hlines : q.lines = "" :: p.lines) (hcomments : q.comments = p.comments) :
    Writes p [.blank] q := by
  have hnone : p.comments.takeWhile (·.line < 0) = [] ∧
      p.comments.dropWhile (·.line < 0) = p.comments := by
    cases p.comments <;> exact ⟨rfl, rfl⟩
  rw [Writes, List.foldl_cons, List.foldl_nil, putPassage, hlines, hcomments]
  change (_, _) =
    (((p.comments.takeWhile (·.line < 0)).map (commentLine 0) ++ [""]).reverse ++ p.lines,
      p.comments.dropWhile (·.line < 0))
  rw [hnone.1, hnone.2]
  rfl

/-! ## Following a walk -/

/-- A printer that prints some passages and keeps its flags, but for the one that tells whether a
    list was just closed. -/
structure Emits (p : Printer) (passages : List Passage) (q : Printer) : Prop where
  writes : Writes p passages q
  indent : q.indent = p.indent
  inAlignment : q.inAlignment = p.inAlignment
  listDepths : q.listDepths = p.listDepths

namespace Emits

theorem trans (h : Emits p passages q) (h' : Emits q passages' r) :
    Emits p (passages ++ passages') r where
  writes := h.writes.trans h'.writes
  indent := h'.indent.trans h.indent
  inAlignment := h'.inAlignment.trans h.inAlignment
  listDepths := h'.listDepths.trans h.listDepths

theorem refl (p : Printer) : Emits p [] p :=
  ⟨rfl, rfl, rfl, rfl⟩

theorem forgetList (p : Printer) : Emits p [] p.forgetList :=
  ⟨rfl, rfl, rfl, rfl⟩

theorem blank (p : Printer) : Emits p [.blank] p.blankLine :=
  ⟨writes_blank rfl rfl, rfl, rfl, rfl⟩

end Emits

@[simp] theorem indent_startLine (n : Node) (p : Printer) : (p.startLine n).indent = p.indent := by
  rw [startLine_eq]

@[simp] theorem inAlignment_startLine (n : Node) (p : Printer) :
    (p.startLine n).inAlignment = p.inAlignment := by
  rw [startLine_eq]

@[simp] theorem listDepths_startLine (n : Node) (p : Printer) :
    (p.startLine n).listDepths = p.listDepths := by
  rw [startLine_eq]

/-- Getting ready for a line does not tell of lists. -/
@[simp] theorem listClosed_startLine (n : Node) (p : Printer) :
    (p.startLine n).listClosed = p.listClosed := by
  rw [startLine_eq]

/-- A node that is shown by one line. -/
theorem emits_line {n : Node} {row : Row} {text : String}
    (h : row.texts p.indent = [indentation p.indent ++ text]) :
    Emits p [.ofNode p.indent n [⟨p.indent, row⟩]] ((p.startLine n).writeLine text) where
  writes := by
    refine writes_ofNode ?_ rfl
    change (indentation (p.startLine n).indent ++ text) :: _ =
      (row.texts p.indent ++ []).reverse ++ _
    rw [h, indent_startLine]
    rfl
  indent := indent_startLine n p
  inAlignment := inAlignment_startLine n p
  listDepths := listDepths_startLine n p

/-- A node that is shown by one line, before which the printer forgets of lists. -/
theorem emits_head {n : Node} {row : Row} {text : String}
    (h : row.texts p.indent = [indentation p.indent ++ text]) :
    Emits p [.ofNode p.indent n [⟨p.indent, row⟩]] (((p.startLine n).forgetList).writeLine text) :=
  have hline := emits_line h
  ⟨hline.writes, hline.indent, hline.inAlignment, hline.listDepths⟩

/-- Values and numbers are printed with the line that they are on. -/
theorem foldl_walkContent (c : ItemContent) (p : Printer) :
    (Item.walkContent c).foldl follow p = p := by
  rcases c with ⟨kind, k, _ | v⟩ | l <;> rfl

theorem foldl_values (title : Option Value) (p : Printer) :
    (title.toList.flatMap Value.walk).foldl follow p = p := by
  cases title <;> rfl

theorem foldl_counts (count : Option Count) (p : Printer) :
    (count.toList.flatMap Count.walk).foldl follow p = p := by
  cases count <;> rfl

theorem foldl_literals (names : List Literal) (p : Printer) :
    (names.flatMap Literal.walk).foldl follow p = p := by
  induction names with
  | nil => rfl
  | cons l names ih => exact ih

theorem foldl_comments (comments : List Comment) (p : Printer) :
    (comments.flatMap Comment.walk).foldl follow p = p := by
  induction comments with
  | nil => rfl
  | cons c comments ih => exact ih

/-- An item after a list is kept apart from it. -/
theorem follow_item (i : Item) (p : Printer) :
    Emits p [i.passage p.indent p.listClosed] (i.walk.foldl follow p) ∧
      (i.walk.foldl follow p).listClosed = false := by
  have hwalk : i.walk.foldl follow p = p.enter (.item i) := foldl_walkContent i.content _
  rw [hwalk, enter, listClosed_startLine]
  cases hclosed : p.listClosed with
  | false => exact ⟨emits_line rfl, (listClosed_startLine _ p).trans hclosed⟩
  -- a blank line keeps the item out of the list, and then the list is forgotten
  | true =>
    refine ⟨⟨writes_ofNode ?_ rfl, indent_startLine _ p, inAlignment_startLine _ p,
      listDepths_startLine _ p⟩, rfl⟩
    change (indentation (p.startLine (.item i)).indent ++ i.line) :: _ = _
    rw [indent_startLine]
    rfl

/-- Right after something else than a list, items come one after the other. -/
theorem follow_items (items : List Item) {p : Printer} (hp : p.listClosed = false) :
    Emits p (items.map (Item.passage p.indent false)) ((items.flatMap Item.walk).foldl follow p) ∧
      ((items.flatMap Item.walk).foldl follow p).listClosed = false := by
  induction items generalizing p with
  | nil => exact ⟨.refl p, hp⟩
  | cons i items ih =>
    obtain ⟨hitem, hclosed⟩ := follow_item i p
    obtain ⟨hrest, hlast⟩ := ih hclosed
    rw [List.flatMap_cons, List.foldl_append]
    rw [hp] at hitem
    rw [hitem.indent] at hrest
    exact ⟨hitem.trans hrest, hlast⟩

/-- The first lines of a list, after which its items are indented. -/
theorem openList_spec (l : ItemList) (p : Printer) :
    (p.openList l).lines = (l.headRow.texts p.indent).reverse ++ p.lines ∧
      (p.openList l).comments = p.comments ∧
      (p.openList l).indent = p.indent + l.depth ∧ (p.openList l).inAlignment = p.inAlignment ∧
      (p.openList l).listDepths = l.depth :: p.listDepths ∧
      (p.openList l).listClosed = p.listClosed := by
  have hhead : l.headRow.texts p.indent = if l.headerEnd.isSome then
      [indentation p.indent ++ joinParts l.titleParts,
        indentation (p.indent + 1) ++ l.consistsOf.squeezed]
    else [indentation p.indent ++ joinParts (l.titleParts ++ [l.consistsOf.squeezed])] := rfl
  rw [hhead, openList, ItemList.depth]
  split <;> exact ⟨rfl, rfl, rfl, rfl, rfl, rfl⟩

/-- A walk through a node, with nothing printed for what is on its line. -/
theorem foldl_inside (enter : Step) {head : List Step} (body : List Step) (p : Printer)
    (hhead : head.foldl follow (p.follow enter) = p.follow enter) :
    (enter :: head ++ body).foldl follow p = body.foldl follow (p.follow enter) := by
  rw [List.foldl_append, List.foldl_cons (b := p), hhead]

/-- A walk through a node that it leaves again. -/
theorem foldl_walk (enter leave : Step) {head : List Step} (body : List Step) (p : Printer)
    (hhead : head.foldl follow (p.follow enter) = p.follow enter) :
    (enter :: head ++ body ++ [leave]).foldl follow p =
      (body.foldl follow (p.follow enter)).follow leave := by
  rw [List.foldl_append, foldl_inside enter body p hhead]
  rfl

/-- In a list its depth is on the stack, and it is what the items are indented by. -/
theorem follow_insideList (l : ItemList) (p : Printer) :
    Writes p (l.passages p.indent) (l.inside.foldl follow p) ∧
      (l.inside.foldl follow p).indent = p.indent + l.depth ∧
      (l.inside.foldl follow p).inAlignment = p.inAlignment ∧
      (l.inside.foldl follow p).listDepths = l.depth :: p.listDepths := by
  let q := ((p.startLine (.list l)).forgetList).openList l
  obtain ⟨hlines, hcomments, hindent, halignment, hdepths, hclosed⟩ :=
    openList_spec l ((p.startLine (.list l)).forgetList)
  have hstart : ((p.startLine (.list l)).forgetList).indent = p.indent := indent_startLine _ p
  obtain ⟨hitems, -⟩ := follow_items l.items hclosed
  rw [hstart] at hlines hindent
  rw [hindent] at hitems
  have hhead : Writes p [.ofNode p.indent (.list l) [⟨p.indent, l.headRow⟩]] q := by
    refine writes_ofNode ?_ hcomments
    rw [List.flatMap_singleton]
    exact hlines
  have hinside : l.inside.foldl follow p = (l.items.flatMap Item.walk).foldl follow q :=
    foldl_inside _ _ p (foldl_values l.title _)
  -- the depth of the list is on the stack when its items are printed
  rw [hinside]
  refine ⟨hhead.trans hitems.writes, hitems.indent.trans hindent, ?_, ?_⟩
  · exact hitems.inAlignment.trans (halignment.trans (inAlignment_startLine _ p))
  · rw [hitems.listDepths, hdepths]
    exact congrArg (l.depth :: ·) (listDepths_startLine _ p)

theorem follow_list (l : ItemList) (p : Printer) :
    Emits p (l.passages p.indent) (l.walk.foldl follow p) ∧
      (l.walk.foldl follow p).listClosed = true := by
  obtain ⟨hwrites, hindent, halignment, hdepths⟩ := follow_insideList l p
  have hwalk : l.walk.foldl follow p = (l.inside.foldl follow p).closeList := by
    rw [l.walk_eq_inside, List.foldl_append]
    rfl
  rw [hwalk]
  refine ⟨⟨hwrites, ?_, halignment, ?_⟩, rfl⟩
  -- the depth that was put on the stack is what the items were indented by
  · change _ - _ = p.indent
    rw [hdepths, hindent]
    exact Nat.add_sub_cancel ..
  · change List.tail _ = p.listDepths
    rw [hdepths]
    rfl

/-- Entries after a list or something else: whether a list was just closed is what keeps an item
    apart. -/
theorem follow_entries (entries : List Element) (p : Printer) :
    Emits p (ElementGroup.passagesOf p.indent p.listClosed entries)
      ((entries.flatMap Element.walk).foldl follow p) := by
  induction entries generalizing p with
  | nil => exact .refl p
  | cons e entries ih =>
    rw [List.flatMap_cons, List.foldl_append]
    -- an item leaves no list behind, and a list always does
    cases e with
    | item i =>
      obtain ⟨hitem, hclosed⟩ := follow_item i p
      have hrest := ih (i.walk.foldl follow p)
      rw [hclosed, hitem.indent] at hrest
      exact hitem.trans hrest
    | list l =>
      obtain ⟨hlist, hclosed⟩ := follow_list l p
      have hrest := ih (l.walk.foldl follow p)
      rw [hclosed, hlist.indent] at hrest
      exact hlist.trans hrest

/-- A direction is printed, unless it is that of an alignment. -/
theorem follow_direction (d : Direction) {p : Printer} (hp : p.inAlignment = false) :
    Emits p [.ofNode p.indent (.direction d) [⟨p.indent, .direction d⟩]] (d.walk.foldl follow p) ∧
      (d.walk.foldl follow p).listClosed = p.listClosed := by
  have hwalk : d.walk.foldl follow p = (p.startLine (.direction d)).writeLine d.line := by
    rw [Direction.walk, List.foldl_cons, foldl_counts]
    change p.enter (.direction d) = _
    rw [enter, hp]
    rfl
  rw [hwalk]
  exact ⟨emits_line rfl, listClosed_startLine _ p⟩

/-! ## Groups, blocks and pages -/

/-- A group that has nothing to show is shown by a blank line. -/
theorem follow_elements (g : ElementGroup) {p : Printer} (hp : p.inAlignment = false) :
    Emits p (g.passages p.indent) (g.walk.foldl follow p) := by
  obtain ⟨_ | d, entries, lineEnds⟩ := g
  · cases entries with
    | nil => exact (Emits.forgetList p).trans (.blank _)
    | cons e entries =>
      have hwalk : (ElementGroup.walk ⟨none, e :: entries, lineEnds⟩).foldl follow p =
        ((e :: entries).flatMap Element.walk).foldl follow p.forgetList := by
        rw [ElementGroup.walk, foldl_walk _ _ _ p rfl]
        rfl
      rw [hwalk]
      exact (Emits.forgetList p).trans (follow_entries (e :: entries) p.forgetList)
  · have hwalk : (ElementGroup.walk ⟨some d, entries, lineEnds⟩).foldl follow p =
      (entries.flatMap Element.walk).foldl follow (d.walk.foldl follow p.forgetList) := by
      rw [ElementGroup.walk, List.foldl_append, List.foldl_append]
      simp only [Option.toList_some, List.flatMap_singleton]
      rfl
    -- a direction closes no list, so the entries still begin as the group does
    obtain ⟨hdirection, hclosed⟩ := follow_direction d (p := p.forgetList) hp
    have hentries := follow_entries entries (d.walk.foldl follow p.forgetList)
    rw [hclosed, hdirection.indent] at hentries
    rw [hwalk]
    exact (Emits.forgetList p).trans (hdirection.trans hentries)

/-- Members one after the other, each at the same level and in no alignment. -/
theorem follow_members {α : Type} {walk : α → List Step} {f : α → List Passage} {level : Nat}
    (hmember : ∀ x p, p.indent = level → p.inAlignment = false →
      Emits p (f x) ((walk x).foldl follow p))
    (xs : List α) {p : Printer} (hindent : p.indent = level) (halignment : p.inAlignment = false) :
    Emits p (xs.flatMap f) ((xs.flatMap walk).foldl follow p) := by
  induction xs generalizing p with
  | nil => exact .refl p
  | cons x xs ih =>
    have hfirst := hmember x p hindent halignment
    rw [List.flatMap_cons, List.flatMap_cons, List.foldl_append]
    exact hfirst.trans (ih (hfirst.indent.trans hindent) (hfirst.inAlignment.trans halignment))

/-- In a block all is indented by one level. -/
theorem follow_insideBlock (b : Block) {p : Printer} (hindent : p.indent = 0)
    (halignment : p.inAlignment = false) :
    Writes p b.passages (b.inside.foldl follow p) ∧ (b.inside.foldl follow p).indent = 1 ∧
      (b.inside.foldl follow p).inAlignment = false ∧
      (b.inside.foldl follow p).listDepths = p.listDepths := by
  let q := ((p.startLine (.block b)).forgetList).writeLine b.line
  have hhead : Emits p [.ofNode 0 (.block b) [⟨0, b.headRow⟩]] q :=
    hindent ▸ emits_head rfl
  have hdeeper : (q.deeper 1).indent = 1 := congrArg (· + 1) (hhead.indent.trans hindent)
  have hflag : (q.deeper 1).inAlignment = false := hhead.inAlignment.trans halignment
  have hgroups :
      Emits (q.deeper 1) _ ((b.groups.flatMap ElementGroup.walk).foldl follow (q.deeper 1)) :=
    follow_members (fun g p hindent halignment => hindent ▸ follow_elements g halignment) b.groups
      hdeeper hflag
  have hinside : b.inside.foldl follow p =
      (b.groups.flatMap ElementGroup.walk).foldl follow (q.deeper 1) :=
    foldl_inside _ _ p (foldl_values b.title _)
  rw [hinside]
  exact ⟨hhead.writes.trans hgroups.writes, hgroups.indent.trans hdeeper,
    hgroups.inAlignment.trans hflag, hgroups.listDepths.trans hhead.listDepths⟩

theorem follow_block (b : Block) {p : Printer} (hindent : p.indent = 0)
    (halignment : p.inAlignment = false) : Emits p b.passages (b.walk.foldl follow p) := by
  obtain ⟨hwrites, hinside, hflag, hdepths⟩ := follow_insideBlock b hindent halignment
  have hwalk : b.walk.foldl follow p = (b.inside.foldl follow p).leave (.block b) := by
    rw [b.walk_eq_inside, List.foldl_append]
    rfl
  rw [hwalk]
  exact ⟨hwrites, (congrArg (· - 1) hinside).trans hindent.symm,
    hflag.trans halignment.symm, hdepths⟩

/-- The direction of an alignment is printed with it. -/
theorem follow_alignment (a : Alignment) {p : Printer} (hp : p.inAlignment = false) :
    Emits p [.ofNode p.indent (.alignment a) [⟨p.indent, .alignment a⟩]]
      (a.walk.foldl follow p) := by
  -- the flag that is set for the direction is gone when the walk has passed it
  have hwalk : a.walk.foldl follow p =
      { (p.startLine (.alignment a)).writeLine a.line with inAlignment := false } := by
    rw [Alignment.walk, List.foldl_append, List.foldl_cons, foldl_literals, Direction.walk,
      List.foldl_cons, foldl_counts]
    rfl
  have hline : Emits p [.ofNode p.indent (.alignment a) [⟨p.indent, .alignment a⟩]]
      ((p.startLine (.alignment a)).writeLine a.line) := emits_line rfl
  rw [hwalk]
  exact ⟨hline.writes, hline.indent, hp.symm, hline.listDepths⟩

theorem follow_blocks (g : BlockGroup) {p : Printer} (hindent : p.indent = 0)
    (halignment : p.inAlignment = false) : Emits p g.passages (g.walk.foldl follow p) := by
  obtain ⟨_ | a, blocks, lineEnds⟩ := g
  · cases blocks with
    | nil => exact (Emits.forgetList p).trans (.blank _)
    | cons b blocks =>
      have hwalk : (BlockGroup.walk ⟨none, b :: blocks, lineEnds⟩).foldl follow p =
        ((b :: blocks).flatMap Block.walk).foldl follow p.forgetList := by
        rw [BlockGroup.walk, foldl_walk _ _ _ p rfl]
        rfl
      rw [hwalk]
      exact (Emits.forgetList p).trans
        (follow_members (fun b _ => follow_block b) (b :: blocks) hindent halignment)
  · have hwalk : (BlockGroup.walk ⟨some a, blocks, lineEnds⟩).foldl follow p =
      (blocks.flatMap Block.walk).foldl follow (a.walk.foldl follow p.forgetList) := by
      rw [BlockGroup.walk, List.foldl_append, List.foldl_append]
      simp only [Option.toList_some, List.flatMap_singleton]
      rfl
    have hline := follow_alignment a (p := p.forgetList) halignment
    have hrest := follow_members (fun b _ => follow_block b) blocks (hline.indent.trans hindent)
      (hline.inAlignment.trans halignment)
    rw [show p.forgetList.indent = 0 from hindent] at hline
    rw [hwalk]
    exact (Emits.forgetList p).trans (hline.trans hrest)

theorem follow_page (page : Page) {p : Printer} (hindent : p.indent = 0)
    (halignment : p.inAlignment = false) : Emits p page.passages (page.walk.foldl follow p) := by
  let q := ((p.startLine (.page page)).forgetList).writeLine page.line
  have hhead : Emits p [.ofNode 0 (.page page) [⟨0, page.headRow⟩]] q :=
    hindent ▸ emits_head rfl
  have hgroups : Emits q _ ((page.groups.flatMap BlockGroup.walk).foldl follow q) :=
    follow_members (fun g _ => follow_blocks g) page.groups (hhead.indent.trans hindent)
      (hhead.inAlignment.trans halignment)
  have hwalk : page.walk.foldl follow p = (page.groups.flatMap BlockGroup.walk).foldl follow q := by
    rw [Page.walk, foldl_walk _ _ _ p rfl]
    rfl
  rw [hwalk]
  exact hhead.trans hgroups

theorem follow_scene (s : Scene) :
    Emits (.start s) s.passages (s.walk.foldl follow (.start s)) := by
  have hwalk : s.walk.foldl follow (.start s) =
      (s.pages.flatMap Page.walk).foldl follow (.start s) := by
    rw [Scene.walk, List.foldl_append, List.foldl_append, foldl_comments]
    rfl
  rw [hwalk]
  exact follow_members (fun p _ => follow_page p) s.pages rfl rfl

/-- All that is printed for a scene: its passages, with its comments in between. -/
theorem lines_scene (s : Scene) : (s.walk.foldl follow (.start s)).flush.lines.reverse =
    arrange commentLine LaidRow.texts (sortByOffset (s.comments.map Comment.token)) s.passages := by
  have hscene := follow_scene s
  generalize s.walk.foldl follow (.start s) = q at hscene
  have hwrites : (q.lines, q.comments) =
      s.passages.foldl putPassage ([], sortByOffset (s.comments.map Comment.token)) := hscene.writes
  have hindent : q.indent = 0 := hscene.indent
  have hlines := foldl_putPassage s.passages [] (sortByOffset (s.comments.map Comment.token))
  rw [← hwrites, List.append_nil, List.map_reverse] at hlines
  rw [flush, foldl_writeLine]
  dsimp only
  rw [hindent, hlines, List.reverse_reverse]

end Printer

/-- A scene is printed as its passages, with its comments in between. -/
theorem Scene.layout_eq (s : Scene) : s.layout = String.join
    ((arrange commentLine LaidRow.texts
      (sortByOffset (s.comments.map Comment.token)) s.passages).map (· ++ "\n")) := by
  rw [layout, Printer.text, Printer.lines_scene]

/-- A scene is printed as the lines of its layout, with its comments in between. -/
theorem Scene.exists_layout (s : Scene) : ∃ lines,
    s.layout = String.join (lines.map (· ++ "\n")) ∧
      Commented (sortByOffset (s.comments.map Comment.token))
        (s.laid.flatMap LaidRow.texts) lines :=
  ⟨_, s.layout_eq, s.texts_passages ▸ commented_arrange _ _⟩

end Wireframe
