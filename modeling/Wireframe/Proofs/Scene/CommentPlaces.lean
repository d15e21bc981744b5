import Wireframe.Proofs.Scene.PrintedLine
import Wireframe.Proofs.Scene.SheetComments
import Wireframe.Proofs.Token.CommentLine

/-!
# Where the comments of a scene are printed

Printing a scene that was read keeps each of its comments, on a line of its own and in place: after
the lines of the nodes that start on its line of the source or above it, and before the lines of
those that start below it (`Reading.comments_layout`). For both comments and passages go down the
lines of the source, and the direction of an alignment is on the line of the alignment
(`Alignment.isJoined`), as it is when it is printed.
-/

namespace Wireframe

/-! ## The lines of the source -/

namespace Lexing

variable {locale : Locale} {text : List Char}

/-- Tokens that are in order go down the lines of their text. -/
theorem pairwise_line {tokens : List Token} (h : InOrder tokens) (hmem : ∀ t ∈ tokens,
      t ∈ (ofText locale text).tokens ++ (ofText locale text).comments) :
    tokens.Pairwise fun t u => t.line ≤ u.line :=
  List.Pairwise.imp_of_mem (fun ht hu hlt => Nat.not_lt.1 fun hline =>
    Nat.lt_asymm hlt (offset_lt_of_line_lt (hmem _ hu) (hmem _ ht) hline)) h

/-- What comes after some words is on their line. -/
theorem line_eq_of_isChain {t u : Token} {words more : List Token}
    (h : (t :: words ++ u :: more).IsChain SharesLine)
    (hwords : ∀ w ∈ t :: words, w.kind ≠ .lineEnd) : u.line = t.line := by
  induction words generalizing t with
  | nil => exact (List.isChain_cons_cons.1 h).1 (hwords t List.mem_cons_self)
  | cons w words ih =>
    obtain ⟨ht, hwords⟩ := List.forall_mem_cons.1 hwords
    obtain ⟨hline, hrest⟩ := List.isChain_cons_cons.1 h
    rw [ih hrest hwords, hline ht]

end Lexing

/-! ## Alignments -/

section Alignment

variable {a : Alignment}

/-- The direction of an alignment starts on its line, as no line ends before it. -/
theorem Alignment.isJoined (hwell : (Row.alignment a).IsWellFormed) (horder : InOrder a.written)
    (hline : a.written.IsChain Lexing.SharesLine) : a.IsJoined := by
  obtain ⟨t, words, leaves, -, hleaves⟩ :=
    Passage.exists_head (r := .direction a.direction) nofun
  have hleaves : a.direction.leaves = t :: leaves := hleaves
  have hwritten : a.written = a.keyword ::
      (separated (a.names.map Literal.token) a.commas ++ [a.aligned]) ++ t :: leaves := by
    rw [written, hleaves]
    simp
  -- the only line end of an alignment is the last of its tokens
  have hwords : ∀ w ∈ a.keyword :: (separated (a.names.map Literal.token) a.commas ++ [a.aligned]),
      w.kind ≠ .lineEnd := by
    refine fun w hw => ((Row.IsWellFormed.lines hwell _ List.mem_cons_self).1 w ?_).ne_lineEnd
    have hprefix : (a.keyword :: (separated (a.names.map Literal.token) a.commas ++ [a.aligned])) ++
        a.direction.words = a.words := by
      simp [Alignment.words]
    exact hprefix ▸ List.mem_append_left _ hw
  have hdirection : (Node.direction a.direction).range.start = t.range.start :=
    Node.start_range (.of_eq hleaves)
      (horder.sublist (hwritten ▸ List.sublist_append_right _ _))
  have halignment : (Node.alignment a).range.start = a.keyword.range.start :=
    Node.start_range a.leaves_perm_written horder
  rw [IsJoined, hdirection, halignment]
  exact Lexing.line_eq_of_isChain (hwritten ▸ hline) hwords

/-- The alignments of a scene are among its rows. -/
theorem Scene.Reads.alignment_mem {greedy : Prop} {s : Scene} {rows : List Row}
    (h : s.Reads greedy rows) {p : Page} (hp : p ∈ s.pages) {g : BlockGroup} (hg : g ∈ p.groups)
    (ha : a ∈ g.alignment) : .alignment a ∈ rows := by
  obtain ⟨_, ⟨rest, hgroups, rfl⟩, hpage⟩ := RowsOfLines.exists_sublist h p hp
  obtain ⟨_, ⟨⟨_, -, rfl⟩, -⟩, hgroup⟩ := RowsOf.exists_sublist hgroups g hg
  refine hpage.subset (List.mem_cons_of_mem _ (hgroup.subset (List.mem_append_left _ ?_)))
  exact List.mem_map_of_mem (Option.mem_toList.2 ha)

end Alignment

namespace Reading

variable {o : ReadingOptions} {text : List Char} {locale : Locale} {s : Scene} {tokens : List Token}

theorem isJoined_alignments (h : ofText o text = success locale s tokens) :
    ∀ p ∈ s.pages, ∀ g ∈ p.groups, ∀ a ∈ g.alignment, a.IsJoined := by
  intro p hp g hg a ha
  obtain ⟨rows, hreads, hrows, hwritten⟩ := exists_written_rows h
  obtain ⟨-, hlex, htokens, -⟩ := of_success h
  have hmem := hreads.alignment_mem hp hg ha
  have hinfix : a.written <:+: tokens := by
    rw [hrows]
    exact List.infix_of_mem_flatten (List.mem_map_of_mem (f := Row.leaves) hmem)
  have hline : tokens.IsChain Lexing.SharesLine := htokens ▸ Lexing.sharesLine hlex
  have hshared := hline.infix hinfix
  exact Alignment.isJoined (hwritten _ hmem).wellFormed
    ((inOrder_tokens h).sublist hinfix.sublist) hshared

/-! ## Passages and comments -/

/-- The passages of a scene that was read go down the lines of its text. -/
theorem pairwise_passages (h : ofText o text = success locale s tokens) :
    s.passages.Pairwise fun p q => q.words ≠ [] → p.line ≤ q.line := by
  obtain ⟨-, -, htokens, -⟩ := of_success h
  have hlines : tokens.Pairwise fun t u => t.line ≤ u.line :=
    Lexing.pairwise_line (inOrder_tokens h) fun _ ht => List.mem_append_left _ (htokens ▸ ht)
  have hwords := hlines.filter (·.kind ≠ .lineEnd)
  rw [← flatMap_words h, List.pairwise_flatMap] at hwords
  refine List.Pairwise.imp_of_mem (fun {p q} hp hq hpq hne => ?_) hwords.2
  have hpline : p.line = (p.words.head?.map Token.line).getD 0 := isPlaced_passages h p hp
  have hqline : q.line = (q.words.head?.map Token.line).getD 0 := isPlaced_passages h q hq
  obtain ⟨u, more, hq⟩ := List.exists_cons_of_ne_nil hne
  rw [hpline, hqline, hq]
  cases hp : p.words with
  | nil => exact Nat.zero_le _
  | cons t words => exact hpq t (hp ▸ List.mem_cons_self) u (hq ▸ List.mem_cons_self)

/-- The comments of a scene that was read go down the lines of its text. -/
theorem pairwise_comments (h : ofText o text = success locale s tokens) :
    (s.comments.map Comment.token).Pairwise fun c d => c.line ≤ d.line :=
  Lexing.pairwise_line (inOrder_comments h) fun _ hc =>
    List.mem_append_right _ (comments_eq h ▸ hc)

end Reading

/-! ## Printed scenes -/

/-- The lines that a scene is printed as: they show all its nodes and comments, in order, and
    each comment in place. -/
structure Scene.IsPrintedAs (s : Scene) (lines : List PrintedLine) : Prop where
  layout : s.layout = String.join (lines.map (·.text ++ "\n"))
  lineFeed : ∀ l ∈ lines, '\n' ∉ l.text.toList
  nodes : lines.flatMap PrintedLine.nodes = s.walk.filterMap Step.shown?
  comments : lines.filterMap PrintedLine.comment? = s.comments.map Comment.token
  /-- A comment comes after the nodes that start on its line or above it, and before all others. -/
  places : ∀ (i j : Nat) (l l' : PrintedLine), lines[i]? = some l → lines[j]? = some l' →
    ∀ c ∈ l.comment?, ∀ n ∈ l'.subjects,
      (j < i ↔ n.range.start.line ≤ c.line) ∧ (i < j ↔ c.line < n.range.start.line)

theorem PrintedLine.places_of_pairwise {lines : List PrintedLine} (h : lines.Pairwise Precedes)
    {i j : Nat} {l l' : PrintedLine} (hl : lines[i]? = some l)
    (hl' : lines[j]? = some l') {c : Token}
    (hc : c ∈ l.comment?) {n : Node} (hn : n ∈ l'.subjects) :
    (j < i ↔ n.range.start.line ≤ c.line) ∧ (i < j ↔ c.line < n.range.start.line) := by
  obtain ⟨hi, rfl⟩ := List.getElem?_eq_some_iff.1 hl
  obtain ⟨hj, rfl⟩ := List.getElem?_eq_some_iff.1 hl'
  have hne : i ≠ j := by
    rintro rfl
    rw [comment?_eq_none hn] at hc
    cases hc
  have hafter : j < i → n.range.start.line ≤ c.line := fun hlt =>
    (List.pairwise_iff_getElem.1 h j i hj hi hlt).node n hn c hc
  have hbefore : i < j → c.line < n.range.start.line := fun hlt =>
    (List.pairwise_iff_getElem.1 h i j hi hj hlt).comment c hc n hn
  omega

/-- What is made of numbered lines depends on what is taken from them only. -/
theorem flatMap_zipIdx_congr {α β γ δ : Type} {f : α → γ} {g : β → γ} {xs : List α} {ys : List β}
    (h : xs.map f = ys.map g) (k : γ → Nat → List δ) (n : Nat) :
    ((xs.zipIdx n).flatMap fun x => k (f x.1) x.2) =
      (ys.zipIdx n).flatMap fun y => k (g y.1) y.2 := by
  have := congrArg (fun zs => (zs.zipIdx n).flatMap fun z => k z.1 z.2) h
  simpa [List.zipIdx_map, List.flatMap_map] using this

/-- The stamps of the comments on a sheet, from what its lines show. -/
theorem SheetLine.flatMap_comments {sheet : List SheetLine} {lines : List PrintedLine}
    (h : sheet.map comment? = lines.map PrintedLine.comment?) (n : Nat) :
    (sheet.zipIdx n).flatMap comments =
      (lines.zipIdx n).flatMap fun l => l.1.comment?.toList.map (Token.stampAt l.2) := by
  have hcomments (x : SheetLine × Nat) :
      comments x = x.1.comment?.toList.map (Token.stampAt x.2) := by
    obtain ⟨_ | _, _⟩ := x <;> rfl
  rw [funext hcomments]
  exact flatMap_zipIdx_congr h (fun c? n => c?.toList.map (Token.stampAt n)) n

namespace Reading

variable {o : ReadingOptions} {text : List Char} {locale : Locale} {s : Scene} {tokens : List Token}

theorem exists_isPrintedAs (h : ofText o text = success locale s tokens) : ∃ lines,
    s.IsPrintedAs lines ∧ s.sheet.map SheetLine.comment? = lines.map PrintedLine.comment? := by
  obtain ⟨groups, hgroups, hnodes⟩ := Scene.shows (isJoined_alignments h)
  obtain ⟨lines, hlines⟩ := exists_printed hgroups (pairwise_comments h) (pairwise_passages h)
  obtain ⟨rows, hreads, -, hwritten⟩ := exists_written_rows h
  have htexts := hlines.texts
  have hsheet := hlines.sheet
  rw [← sortByOffset_comments h] at htexts hsheet
  refine ⟨lines, ⟨?_, ?_, ?_, hlines.comments, ?_⟩, hsheet⟩
  · rw [s.layout_eq, htexts, List.map_map]
    rfl
  -- these lines are also those of the sheet, in which no line has a line feed of its own
  · rw [Scene.arrange_texts (hreads.forall_laid Row.isWritten_blank hwritten)] at htexts
    intro l hl
    obtain ⟨line, hline, heq⟩ := List.mem_map.1 (htexts ▸ List.mem_map_of_mem hl)
    rw [← heq, String.toList_ofList]
    exact (stamps_comments_layout h).1 line hline
  · rw [← hnodes, ← hlines.shown, PrintedLine.flatMap_nodes_filter]
  · exact fun _ _ _ _ hl hl' _ hc _ hn =>
      PrintedLine.places_of_pairwise hlines.precedes hl hl' hc hn

/-- What is shown as a comment is a comment. -/
theorem kind_comment (h : ofText o text = success locale s tokens) {lines : List PrintedLine}
    (hlines : s.IsPrintedAs lines) {l : PrintedLine} (hl : l ∈ lines) {c : Token}
    (hc : c ∈ l.comment?) : c.kind = .comment := by
  have hmem : c ∈ s.comments.map Comment.token :=
    hlines.comments ▸ List.mem_filterMap.2 ⟨l, hl, hc⟩
  rw [← sortByOffset_comments h] at hmem
  cases isSet_comment h hmem 0 with
  | comment level hkind => exact hkind

/-- Printing a scene that was read keeps its comments, which are in the order of the source: lexing
    what it is printed as gives just the images of the comments, trimmed, each on the line that
    shows it. A comment has a line of its own, and it is in place between the nodes. -/
theorem comments_layout (h : ofText o text = success locale s tokens) :
    InOrder (s.comments.map Comment.token) ∧
      (Lexing.ofText locale s.layout.toList).comments.map Token.image =
        s.comments.map (·.token.trimmed) ∧
      ∃ lines, s.IsPrintedAs lines ∧
        (Lexing.ofText locale s.layout.toList).comments.map (fun c => (c.line, c.image)) =
          (lines.zipIdx 1).flatMap fun l => l.1.comment?.toList.map fun c => (l.2, c.trimmed) := by
  obtain ⟨lines, hlines, hsheet⟩ := exists_isPrintedAs h
  have hstamps := (stamps_comments_layout h).2
  rw [SheetLine.flatMap_comments hsheet] at hstamps
  generalize (Lexing.ofText locale s.layout.toList).comments = lexed at hstamps ⊢
  -- a comment is printed trimmed, and it is lexed on the line that it is printed on
  have hplaces : lexed.map (fun c => (c.line, c.image)) =
      (lines.zipIdx 1).flatMap fun l => l.1.comment?.toList.map fun c => (l.2, c.trimmed) := by
    have hlexed : lexed.map (fun c => (c.line, c.image)) =
        (lexed.map Token.stamp).map fun x => (x.line, String.ofList x.chars) := by
      rw [List.map_map]
      exact List.map_congr_left fun c _ => by simp [Token.stamp, Token.chars]
    rw [hlexed, hstamps, List.map_flatMap]
    refine List.flatMap_congr fun l hl => ?_
    rw [List.map_map]
    refine List.map_congr_left fun c hc => ?_
    have hkind := kind_comment h hlines (List.fst_mem_of_mem_zipIdx hl) (Option.mem_toList.1 hc)
    exact congrArg (fun x : Stamp => (x.line, String.ofList x.chars))
      (Token.stampAt_of_comment hkind l.2)
  have himages : lexed.map Token.image = (lexed.map fun c => (c.line, c.image)).map Prod.snd := by
    rw [List.map_map]
    rfl
  refine ⟨inOrder_comments h, ?_, lines, hlines, hplaces⟩
  calc lexed.map Token.image
    _ = (lines.zipIdx 1).flatMap fun l => l.1.comment?.toList.map Token.trimmed := by
        rw [himages, hplaces, List.map_flatMap]
        exact List.flatMap_congr fun l _ => List.map_map
    _ = lines.flatMap fun l => l.comment?.toList.map Token.trimmed :=
        flatMap_zipIdx (fun l : PrintedLine => l.comment?.toList.map Token.trimmed) lines 1
    _ = (lines.filterMap PrintedLine.comment?).map Token.trimmed := by
        rw [List.filterMap_eq_flatMap_toList, List.map_flatMap]
    _ = s.comments.map (·.token.trimmed) := by
        rw [hlines.comments, List.map_map]
        rfl

/-- A comment beside a title, one on a line of its own with blanks after it, and one within the head
    of a list, which is printed on two lines. -/
theorem comments_layout_page : ∃ s tokens lines,
    ofText ⟨.fixed .english, true, 9⟩
        "Page: A //one\n//two \nBlock: B\nList C // 3\nconsists of\nImage\n".toList =
      success .english s tokens ∧ s.IsPrintedAs lines ∧
    (Lexing.ofText .english s.layout.toList).comments.map Token.image =
      ["//one", "//two", "// 3"] := by
  let o : ReadingOptions := ⟨.fixed .english, true, 9⟩
  let text := "Page: A //one\n//two \nBlock: B\nList C // 3\nconsists of\nImage\n".toList
  have hsuccess : (ofText o text).isSuccess = true := by decide +kernel
  have hlocale : (ofText o text).locale? = some .english := by decide +kernel
  have hcomments : (ofText o text).scene?.map (fun s => s.comments.map (·.token.trimmed)) =
      some ["//one", "//two", "// 3"] := by decide +kernel
  obtain ⟨locale, s, tokens, hread⟩ := exists_of_isSuccess hsuccess
  rw [hread] at hlocale hcomments
  obtain rfl := Option.some.inj hlocale
  obtain ⟨-, himages, lines, hlines, -⟩ := comments_layout hread
  exact ⟨s, tokens, lines, hread, hlines, himages.trans (Option.some.inj hcomments)⟩

end Reading

end Wireframe
