import Wireframe.Proofs.Scene.Placed
import Wireframe.Proofs.Scene.Reread

/-!
# Printing what was printed

On a sheet every comment is above the passage it was put above, and below all passages before. So
when the sheet is read, the comments come before the same passages again: the scene that is read has
essentially the same sheet (`map_essence_arrange`).
-/

namespace Wireframe

open Text

/-! ## Numbered lines -/

section LineNumbers

variable {α β : Type}

/-- The lines that things are on, if `f` tells what is on a line and the first line is the
    one with the number `n`. -/
def lineNumbers (f : α → List β) (n : Nat) (lines : List α) : List Nat :=
  (lines.zipIdx n).flatMap fun x => (f x.1).map fun _ => x.2

variable {f : α → List β} {n : Nat} {lines : List α}

theorem lineNumbers_append (more : List α) : lineNumbers f n (lines ++ more) =
    lineNumbers f n lines ++ lineNumbers f (n + lines.length) more := by
  rw [lineNumbers, List.zipIdx_append, List.flatMap_append]
  rfl

theorem length_lineNumbers : (lineNumbers f n lines).length = (lines.flatMap f).length := by
  rw [lineNumbers, ← flatMap_zipIdx f lines n, List.length_flatMap, List.length_flatMap]
  simp only [List.length_map]

theorem lineNumbers_of_forall (h : ∀ line ∈ lines, f line = []) : lineNumbers f n lines = [] := by
  rw [← List.length_eq_zero_iff, length_lineNumbers, List.flatMap_eq_nil_iff.2 h]
  rfl

/-- Things are on the lines that there are. -/
theorem bounds_of_mem_lineNumbers {m : Nat} (h : m ∈ lineNumbers f n lines) :
    n ≤ m ∧ m < n + lines.length := by
  obtain ⟨x, hx, hm⟩ := List.mem_flatMap.1 h
  obtain ⟨-, -, rfl⟩ := List.mem_map.1 hm
  exact ⟨List.le_snd_of_mem_zipIdx hx, by have := List.snd_lt_add_of_mem_zipIdx hx; omega⟩

/-- The numbers of the first lines, and those of the others. -/
theorem lineNumbers_split {tokens more : List Token} {rest : List α}
    (h : (tokens ++ more).map Token.line = lineNumbers f n (lines ++ rest))
    (hlength : tokens.length = (lines.flatMap f).length) :
    tokens.map Token.line = lineNumbers f n lines ∧
      more.map Token.line = lineNumbers f (n + lines.length) rest := by
  rw [lineNumbers_append, List.map_append] at h
  exact List.append_inj h (by rw [List.length_map, length_lineNumbers, hlength])

/-- Tokens that are all below some lines. -/
theorem lineNumbers_drop {tokens : List Token} {rest : List α}
    (h : tokens.map Token.line = lineNumbers f n (lines ++ rest))
    (hnone : ∀ line ∈ lines, f line = []) :
    tokens.map Token.line = lineNumbers f (n + lines.length) rest := by
  rw [lineNumbers_append, lineNumbers_of_forall hnone] at h
  exact h

end LineNumbers

/-! ## Rows of other tokens on a sheet -/

namespace WordLine

/-- A line of other words. -/
def map (f : Token → Token) (l : WordLine) : WordLine :=
  ⟨l.words.map f, f l.lineEnd⟩

end WordLine

namespace SheetLine

/-- The words on a line of a sheet. -/
def content : SheetLine → List Token
  | comment .. => []
  | words _ ws => ws

/-- A line of a sheet with other tokens. -/
def map (f : Token → Token) : SheetLine → SheetLine
  | comment level c => comment level (f c)
  | words level ws => words level (ws.map f)

end SheetLine

section Map

variable (f : Token → Token)

theorem Direction.words_map (d : Direction) : (d.map f).words = d.words.map f := by
  obtain ⟨_ | c, k, axis, e⟩ := d <;> rfl

theorem Alignment.words_map (a : Alignment) : (a.map f).words = a.words.map f := by
  have hnames : (a.names.map (Literal.map f)).map Literal.token =
      (a.names.map Literal.token).map f := by
    simp [Function.comp_def]
  simp only [words, map, Direction.words_map, hnames, separated_map, List.map_cons, List.map_append,
    List.cons_append]

theorem Row.lines_map (r : Row) : (r.map f).lines = r.lines.map (WordLine.map f) := by
  cases r with
  | blank t => rfl
  | page d k t e => cases d <;> simp [map, lines, WordLine.map, DeviceTag.map]
  | alignment a => exact congrArg (fun words => [(⟨words, _⟩ : WordLine)]) (a.words_map f)
  | block k t e => cases t <;> simp [map, lines, WordLine.map]
  | direction d => exact congrArg (fun words => [(⟨words, _⟩ : WordLine)]) (d.words_map f)
  | list k t h c e => cases t <;> cases h <;> simp [map, lines, WordLine.map]
  | item i =>
    obtain ⟨⟨kind, k, _ | v⟩ | l, e⟩ := i <;>
      simp [map, lines, WordLine.map, Item.map, Item.mapContent, Item.contentLeaves]

theorem Row.words_map (r : Row) : (r.map f).words = r.words.map f := by
  rw [words, words, lines_map, List.flatMap_map, List.map_flatMap]
  rfl

theorem LaidRow.lines_map (r : LaidRow) : (r.map f).lines = r.lines.map (SheetLine.map f) := by
  rw [lines, map, Row.lines_map, lines, List.mapIdx_eq_zipIdx_map, List.mapIdx_eq_zipIdx_map,
    List.zipIdx_map, List.map_map, List.map_map]
  rfl

theorem LaidRow.flatMap_lines_map (rows : List LaidRow) :
    (rows.map (map f)).flatMap lines = (rows.flatMap lines).map (SheetLine.map f) := by
  rw [List.flatMap_map, List.map_flatMap]
  exact List.flatMap_congr fun r _ => r.lines_map f

theorem Passage.words_map (p : Passage) : (p.map f).words = p.words.map f := by
  rw [words, words, map, List.flatMap_map, List.map_flatMap]
  exact List.flatMap_congr fun r _ => r.row.words_map f

end Map

/-! ## The same arrangement again -/

section Arrange

theorem LaidRow.flatMap_content (r : LaidRow) :
    r.lines.flatMap SheetLine.content = r.row.words := by
  rw [lines, List.mapIdx_eq_zipIdx_map, List.flatMap_map]
  exact flatMap_zipIdx WordLine.words r.row.lines 0

theorem Passage.flatMap_content (p : Passage) :
    (p.rows.flatMap LaidRow.lines).flatMap SheetLine.content = p.words := by
  rw [List.flatMap_assoc]
  exact List.flatMap_congr fun r _ => r.flatMap_content

theorem LaidRow.commentEssence_eq_nil (r : LaidRow) :
    ∀ line ∈ r.lines, line.commentEssence = [] := by
  intro line hline
  obtain ⟨i, hi, rfl⟩ := List.mem_mapIdx.1 hline
  rfl

/-- A list is split where a condition stops to hold. -/
theorem span_append {α : Type} {p : α → Bool} {xs ys : List α} (hxs : ∀ x ∈ xs, p x = true)
    (hys : ∀ y ∈ ys, p y = false) :
    (xs ++ ys).takeWhile p = xs ∧ (xs ++ ys).dropWhile p = ys := by
  refine ⟨takeWhile_append_stop hxs fun y hy => hys y (List.mem_of_mem_head? hy), ?_⟩
  rw [List.dropWhile_append_of_pos hxs]
  cases ys with
  | nil => rfl
  | cons y ys => rw [List.dropWhile_cons, hys y List.mem_cons_self]; rfl

/-- If a passage is on some lines and all comments on the lines before or after, the printer puts
    the ones before it and the others not. -/
theorem Passage.IsPlaced.span {p : Passage} (h : p.IsPlaced) {early late : List Token}
    {before own after : List SheetLine} {n : Nat}
    (hearly : early.map Token.line = lineNumbers SheetLine.commentEssence n before)
    (hwords : p.words.map Token.line = lineNumbers SheetLine.content (n + before.length) own)
    (hlate : late.map Token.line =
      lineNumbers SheetLine.commentEssence (n + before.length + own.length) after)
    (hnone : p.words = [] → early = []) :
    (early ++ late).takeWhile (·.line < p.line) = early ∧
      (early ++ late).dropWhile (·.line < p.line) = late := by
  rw [IsPlaced] at h
  -- a passage without words has no line, so it takes no comments
  cases hfirst : p.words with
  | nil =>
    have hline : p.line = 0 := by rw [h, hfirst]; rfl
    rw [hnone hfirst, hline]
    exact span_append (fun _ h => absurd h List.not_mem_nil) fun _ _ => rfl
  | cons t words =>
    have hline : p.line = t.line := by rw [h, hfirst]; rfl
    have hmem : t.line ∈ p.words.map Token.line := by
      rw [hfirst]
      exact List.mem_cons_self
    have hbounds := bounds_of_mem_lineNumbers (hwords ▸ hmem)
    rw [hline]
    refine span_append (fun c hc => ?_) fun c hc => ?_
    · have := bounds_of_mem_lineNumbers (hearly ▸ List.mem_map_of_mem hc)
      exact decide_eq_true (by omega)
    · have := bounds_of_mem_lineNumbers (hlate ▸ List.mem_map_of_mem hc)
      exact decide_eq_false (by omega)

/-- Before a passage without words no comment is put. -/
theorem Passage.IsPlaced.takeWhile_eq_nil {p : Passage} (h : p.IsPlaced) (hnil : p.words = [])
    (comments : List Token) : comments.takeWhile (·.line < p.line) = [] := by
  have hline : p.line = 0 := by
    rw [h, hnil]
    rfl
  rw [hline]
  cases comments <;> rfl

theorem Passage.rows_map_eq {p p' : Passage} {f : Token → Token} (h : p'.map f = p.map f) :
    p'.rows.map (LaidRow.map f) = p.rows.map (LaidRow.map f) :=
  congrArg Passage.rows h

theorem Passage.length_words_eq {p p' : Passage} {f : Token → Token} (h : p'.map f = p.map f) :
    p'.words.length = p.words.length := by
  have hwords := congrArg Passage.words h
  rw [p.words_map, p'.words_map] at hwords
  simpa using congrArg List.length hwords

theorem SheetLine.map_comments_eq (level : Nat) {f : Token → Token} {cs cs' : List Token}
    (h : cs'.map f = cs.map f) : (cs'.map (comment level)).map (SheetLine.map f) =
      (cs.map (comment level)).map (SheetLine.map f) := by
  have hlines := congrArg (List.map (comment level)) h
  rwa [List.map_map, List.map_map] at hlines ⊢

/-- What is read from the first lines of a sheet, which have some comments and a passage below them,
    and what is read from the other lines. -/
theorem lineNumbers_passage {p : Passage} {early early' late' words others : List Token}
    {more : List SheetLine} {n : Nat}
    (hnotes : (early' ++ late').map Token.line = lineNumbers SheetLine.commentEssence n
      (early.map (SheetLine.comment p.level) ++ (p.rows.flatMap LaidRow.lines ++ more)))
    (hwords : (words ++ others).map Token.line = lineNumbers SheetLine.content n
      (early.map (SheetLine.comment p.level) ++ (p.rows.flatMap LaidRow.lines ++ more)))
    (hearly : early'.length = early.length) (hlength : words.length = p.words.length) :
    let before := early.map (SheetLine.comment p.level)
    let own := p.rows.flatMap LaidRow.lines
    (early'.map Token.line = lineNumbers SheetLine.commentEssence n before ∧
      words.map Token.line = lineNumbers SheetLine.content (n + before.length) own) ∧
    late'.map Token.line =
        lineNumbers SheetLine.commentEssence (n + before.length + own.length) more ∧
      others.map Token.line =
        lineNumbers SheetLine.content (n + before.length + own.length) more := by
  have hbefore : ∀ line ∈ early.map (SheetLine.comment p.level), line.content = [] :=
    List.forall_mem_map.2 fun _ _ => rfl
  have hown : ∀ line ∈ p.rows.flatMap LaidRow.lines, line.commentEssence = [] :=
    List.forall_mem_flatMap.2 fun r _ => r.commentEssence_eq_nil
  obtain ⟨hfirst, hlate⟩ := lineNumbers_split hnotes (by
    rw [hearly, List.flatMap_map, List.length_flatMap]
    simp [SheetLine.commentEssence])
  obtain ⟨hmiddle, hothers⟩ := lineNumbers_split (lineNumbers_drop hwords hbefore)
    (p.flatMap_content ▸ hlength)
  exact ⟨⟨hfirst, hmiddle⟩, lineNumbers_drop hlate hown, hothers⟩

/-- Passages and comments that are read from a sheet are arranged to essentially the same sheet. -/
theorem map_essence_arrange {comments comments' : List Token} {passages passages' : List Passage}
    {n : Nat} (hcomments : comments'.map Token.essence = comments.map Token.essence)
    (hpassages : passages'.map (Passage.map Token.essence) =
      passages.map (Passage.map Token.essence))
    (hplaced : ∀ p ∈ passages, p.IsPlaced) (hplaced' : ∀ p ∈ passages', p.IsPlaced)
    (hnotes : comments'.map Token.line = lineNumbers SheetLine.commentEssence n
      (arrange .comment LaidRow.lines comments passages))
    (hwords : (passages'.flatMap Passage.words).map Token.line = lineNumbers SheetLine.content n
      (arrange .comment LaidRow.lines comments passages)) :
    (arrange .comment LaidRow.lines comments' passages').map (SheetLine.map Token.essence) =
      (arrange .comment LaidRow.lines comments passages).map (SheetLine.map Token.essence) := by
  induction passages generalizing comments comments' passages' n with
  | nil =>
    obtain rfl := List.map_eq_nil_iff.1 hpassages
    exact SheetLine.map_comments_eq 0 hcomments
  | cons p passages ih =>
    obtain ⟨p', passages', rfl, hp, hpassages⟩ := List.map_eq_cons_iff.1 hpassages
    obtain ⟨hplace, hplaced⟩ := List.forall_mem_cons.1 hplaced
    obtain ⟨hplace', hplaced'⟩ := List.forall_mem_cons.1 hplaced'
    have hlevel : p'.level = p.level :=
      (congrArg Passage.level hp : (p'.map Token.essence).level = (p.map Token.essence).level)
    have hlength := Passage.length_words_eq hp
    have hnone : p'.words = [] → comments.takeWhile (·.line < p.line) = [] := fun hnil =>
      hplace.takeWhile_eq_nil (List.length_eq_zero_iff.1 (by rw [← hlength, hnil]; rfl)) comments
    -- the comments that the first sheet has before the passage are those
    -- before it on the second one
    have hcut := List.takeWhile_append_dropWhile (p := (·.line < p.line)) (l := comments)
    rw [arrange, List.append_assoc] at hnotes hwords
    rw [arrange, arrange]
    generalize comments.takeWhile (·.line < p.line) = early at *
    generalize comments.dropWhile (·.line < p.line) = late at *
    subst hcut
    rw [List.map_append] at hcomments
    obtain ⟨early', late', rfl, hsame, hlate⟩ := List.map_eq_append_iff.1 hcomments
    have hearly : early'.length = early.length := by simpa using congrArg List.length hsame
    obtain ⟨⟨hfirst, hown⟩, hnotes', hwords'⟩ :=
      lineNumbers_passage hnotes (List.flatMap_cons ▸ hwords) hearly hlength
    obtain ⟨htake, hdrop⟩ := hplace'.span hfirst hown hnotes' fun hnil =>
      List.length_eq_zero_iff.1 (by rw [hearly, hnone hnil]; rfl)
    rw [htake, hdrop, List.map_append, List.map_append, List.map_append, List.map_append,
      ih hlate hpassages hplaced hplaced' hnotes' hwords', hlevel,
      SheetLine.map_comments_eq _ hsame]
    congr 2
    rw [← LaidRow.flatMap_lines_map, Passage.rows_map_eq hp, LaidRow.flatMap_lines_map]

end Arrange

/-! ## What of a sheet is essential -/

section Shown

variable {locale : Locale}

/-- A line that shows a comment, or words. -/
def SheetLine.IsShown (locale : Locale) : SheetLine → Prop
  | comment _ c => c.kind = .comment
  | words _ ws => ∀ t ∈ ws, t.IsLexeme locale ∧ t.IsPrinted

theorem lineChars_map_essence {words : List Token}
    (h : ∀ t ∈ words, t.IsLexeme locale ∧ t.IsPrinted) :
    lineChars (words.map Token.essence) = lineChars words := by
  induction words with
  | nil => rfl
  | cons t words ih =>
    obtain ⟨⟨hlexeme, hprinted⟩, hwords⟩ := List.forall_mem_cons.1 h
    have hshown := Token.shown_essence hlexeme hprinted
    cases words with
    | nil => exact hshown
    | cons u words =>
      have hrest := ih hwords
      rw [List.map_cons] at hrest
      rw [List.map_cons, List.map_cons, lineChars, lineChars, hshown, hrest]
      rfl

/-- A line shows what is essential of it. -/
theorem SheetLine.IsShown.chars_map_essence {line : SheetLine} (h : line.IsShown locale) :
    (line.map Token.essence).chars = line.chars := by
  cases line with
  | comment level c =>
    have hchars : c.essence.chars = trim c.chars := by
      rw [Token.essence, Token.essentialImage, show c.kind = .comment from h]
      exact String.toList_ofList
    rw [map, chars, chars, hchars, trim_trim]
  | words level ws =>
    cases ws with
    | nil => rfl
    | cons t ws => exact congrArg (_ ++ ·) (lineChars_map_essence h)

theorem sheetChars_eq {sheet sheet' : List SheetLine} (h : ∀ line ∈ sheet, line.IsShown locale)
    (h' : ∀ line ∈ sheet', line.IsShown locale)
    (hsame : sheet'.map (SheetLine.map Token.essence) = sheet.map (SheetLine.map Token.essence)) :
    sheetChars sheet' = sheetChars sheet := by
  have hessence {sheet : List SheetLine} (h : ∀ line ∈ sheet, line.IsShown locale) :
      sheetChars sheet = sheetChars (sheet.map (SheetLine.map Token.essence)) := by
    rw [sheetChars, sheetChars, List.flatMap_map]
    exact List.flatMap_congr fun line hline => by rw [(h line hline).chars_map_essence]
  rw [hessence h', hsame, ← hessence h]

end Shown

namespace Reading

section Read

variable {o : ReadingOptions} {text : List Char} {locale : Locale} {s : Scene} {tokens : List Token}

theorem comments_eq (h : ofText o text = success locale s tokens) :
    s.comments.map Comment.token = (Lexing.ofText locale (o.source text)).comments := by
  obtain ⟨-, -, -, -, rfl⟩ := of_success h
  rw [List.map_map]
  exact List.map_id _

/-- A text that can be lexed and parsed in a locale is read in it. -/
theorem inLocale_eq {limit : Nat} (hlex : (Lexing.ofText locale text).errors = [])
    (hparse : (Parsing.ofTokens limit (Lexing.ofText locale text).tokens).errors = []) :
    inLocale locale limit text = success locale
      { (Parsing.ofTokens limit (Lexing.ofText locale text).tokens).scene with
        comments := (Lexing.ofText locale text).comments.map Comment.mk }
      (Lexing.ofText locale text).tokens := by
  simp [inLocale, Lexing.hasErrors, hlex, Parsing.hasErrors, hparse]

theorem ofText_eq_inLocale (h : o.locale? (o.source text) = some locale) :
    ofText o text = inLocale locale o.errorLimit (o.source text) := by
  rw [ofText, h]

/-- The comments of a scene that was read are in order. -/
theorem inOrder_comments (h : ofText o text = success locale s tokens) :
    InOrder (s.comments.map Comment.token) := by
  obtain ⟨all, horder, -, hcomments⟩ := Lexing.exists_inOrder locale (o.source text)
  rw [comments_eq h, hcomments]
  exact horder.sublist List.filter_sublist

theorem sortByOffset_comments (h : ofText o text = success locale s tokens) :
    sortByOffset (s.comments.map Comment.token) = s.comments.map Comment.token :=
  (inOrder_comments h).sortByOffset_eq (.refl _)

theorem inOrder_tokens (h : ofText o text = success locale s tokens) : InOrder tokens := by
  obtain ⟨-, -, rfl, -⟩ := of_success h
  obtain ⟨all, horder, htokens, -⟩ := Lexing.exists_inOrder locale (o.source text)
  exact htokens ▸ horder.sublist List.filter_sublist

theorem isPlaced_passages (h : ofText o text = success locale s tokens) :
    ∀ p ∈ s.passages, p.IsPlaced := by
  obtain ⟨rows, hreads, rfl, -⟩ := exists_written_rows h
  exact hreads.isPlaced_passages (inOrder_tokens h)

theorem isShown_sheet (h : ofText o text = success locale s tokens) :
    ∀ line ∈ s.sheet, line.IsShown locale := by
  obtain ⟨rows, hreads, rfl, hwritten⟩ := exists_written_rows h
  obtain ⟨-, hlex, -⟩ := of_success h
  refine forall_mem_arrange (fun level c hc => ?_) fun p hp r hr => ?_
  · rw [sortByOffset_comments h, comments_eq h] at hc
    exact (Lexing.forall_mem_comments (Lexing.lexed_of_errors_eq_nil hlex) _ _ _ c hc).1
  · have hrow := hreads.forall_laid Row.isWritten_blank hwritten _ (s.mem_rowsOf_laid hp hr)
    intro line hline
    obtain ⟨i, hi, rfl⟩ := List.mem_mapIdx.1 hline
    have hl : r.row.lines[i] ∈ r.row.lines := List.getElem_mem hi
    exact fun t ht => ⟨hrow.isLexeme _ hl t ht, (hrow.wellFormed.lines _ hl).1 t ht⟩

/-- The words of the passages of a scene are those of its text. -/
theorem flatMap_words (h : ofText o text = success locale s tokens) :
    s.passages.flatMap Passage.words = tokens.filter (·.kind ≠ .lineEnd) := by
  obtain ⟨rows, hreads, rfl, hwritten⟩ := exists_written_rows h
  have hlaid : s.passages.flatMap Passage.words = (rowsOf s.laid).flatMap Row.words := by
    rw [← s.rows_passages, rowsOf, List.flatMap_map, List.flatMap_assoc]
    rfl
  rw [hlaid, ← hreads.flatMap_eq fun _ => rfl, Row.tokens, List.filter_flatMap]
  refine List.flatMap_congr fun r hr => ?_
  rw [Row.leaves_eq_lines, List.filter_flatMap, Row.words]
  refine List.flatMap_congr fun l hl => ?_
  obtain ⟨hwords, hend⟩ := (hwritten r hr).wellFormed.lines l hl
  rw [List.filter_append, List.filter_singleton, hend, List.filter_eq_self.2 fun t ht => ?_]
  · exact (List.append_nil _).symm
  · exact decide_eq_true (hwords t ht).ne_lineEnd

end Read

end Reading

/-! ## Reading a printed scene -/

section Reread

variable {o : ReadingOptions} {text : List Char} {locale : Locale} {s : Scene} {tokens : List Token}

/-- The scenes of which one is read from what the other was printed as have the same passages. -/
theorem Scene.passages_of_map_eq {s' : Scene}
    (h : (s'.map Token.essence).pages = (s.relined.map Token.essence).pages) :
    s'.passages.map (Passage.map Token.essence) = s.passages.map (Passage.map Token.essence) := by
  have hnewline : Token.newline.essence = .newline := rfl
  have hpassages : (s'.map Token.essence).passages = (s.relined.map Token.essence).passages := by
    rw [passages, h, passages]
  have hrelined := congrArg (List.map (Passage.map Token.essence)) s.passages_relined
  rw [List.map_map, List.map_map] at hrelined
  rw [← s'.passages_map hnewline, hpassages, s.relined.passages_map hnewline]
  exact hrelined

theorem Lexing.Stamped.lines {l : Lexing} {sheet : List SheetLine}
    (h : l.Stamped ((sheet.zipIdx 1).flatMap SheetLine.tokens)
      ((sheet.zipIdx 1).flatMap SheetLine.comments))
    (hset : ∀ line ∈ sheet, line.IsSet locale) :
    (l.tokens.filter (·.kind ≠ .lineEnd)).map Token.line = lineNumbers SheetLine.content 1 sheet ∧
      l.comments.map Token.line = lineNumbers SheetLine.commentEssence 1 sheet := by
  have hline {x : SheetLine × Nat} (hx : x ∈ sheet.zipIdx 1) : x.1.IsSet locale :=
    hset x.1 (List.fst_mem_of_mem_zipIdx hx)
  constructor
  · have htokens : (l.tokens.filter (·.kind ≠ .lineEnd)).map Token.line =
        ((l.tokens.map Token.stamp).filter (·.kind ≠ .lineEnd)).map Stamp.line := by
      rw [List.filter_map, List.map_map]
      rfl
    rw [htokens, h.tokens, List.filter_flatMap, List.map_flatMap]
    refine List.flatMap_congr fun x hx => ?_
    obtain ⟨line, n⟩ := x
    cases hline hx with
    | comment level => rfl
    | blank level => rfl
    | words level _ _ hprinted =>
      rw [SheetLine.tokens, List.filter_append, List.filter_eq_self.2,
        List.map_append, List.map_map]
      · exact List.append_nil _
      · exact List.forall_mem_map.2 fun t ht => decide_eq_true (hprinted t ht).ne_lineEnd
  · have hcomments : l.comments.map Token.line = (l.comments.map Token.stamp).map Stamp.line := by
      rw [List.map_map]
      rfl
    rw [hcomments, h.comments, List.map_flatMap]
    refine List.flatMap_congr fun x _ => ?_
    obtain ⟨_ | _, n⟩ := x <;> rfl

theorem Scene.essence_of_map_eq {s' : Scene}
    (hpages : (s'.map Token.essence).pages = (s.relined.map Token.essence).pages)
    (hcomments : (s'.comments.map Comment.token).map Token.essence =
      (s.comments.map Comment.token).map Token.essence) : s'.essence = s.essence := by
  have hnotes (s : Scene) : (s.map Token.essence).comments =
      ((s.comments.map Comment.token).map Token.essence).map Comment.mk := by
    rw [map, List.map_map, List.map_map]
    rfl
  have hrelined : (s.relined.map Token.essence).pages.map Page.withoutBlanks =
      (s.map Token.essence).pages.map Page.withoutBlanks :=
    congrArg pages (s.withoutBlanks_relined (f := Token.essence))
  rw [essence, essence, withoutBlanks, withoutBlanks, hpages, hrelined, hnotes, hnotes, hcomments]

/-- The characters of a printed scene are those of its sheet. -/
theorem Reading.toList_layout (h : ofText o text = success locale s tokens) :
    s.layout.toList = sheetChars s.sheet := by
  obtain ⟨rows, hreads, -, hwritten⟩ := exists_written_rows h
  rw [Scene.layout_eq_sheet (hreads.forall_laid Row.isWritten_blank hwritten), String.toList_ofList]

/-- A scene that was read from what another one was printed as: essentially they are the same, and
    each word and comment is on the line that it was printed on. -/
structure IsReread (s s' : Scene) (tokens' : List Token) : Prop where
  pages : (s'.map Token.essence).pages = (s.relined.map Token.essence).pages
  comments : (s'.comments.map Comment.token).map Token.essence =
    (s.comments.map Comment.token).map Token.essence
  wordLines : (tokens'.filter (·.kind ≠ .lineEnd)).map Token.line =
    lineNumbers SheetLine.content 1 s.sheet
  commentLines : (s'.comments.map Comment.token).map Token.line =
    lineNumbers SheetLine.commentEssence 1 s.sheet

/-- A printed scene is read in its locale. -/
theorem Reading.exists_isReread (h : ofText o text = success locale s tokens)
    (hfit : CaptionsFit locale tokens) (limit : Nat) :
    ∃ s' tokens', inLocale locale limit s.layout.toList = success locale s' tokens' ∧
      IsReread s s' tokens' := by
  have hset := isSet_sheet h hfit
  obtain ⟨rows, hreads, -, hwritten⟩ := exists_written_rows h
  have hwell : ∀ r ∈ rows, r.IsWellFormed := fun r hr => (hwritten r hr).wellFormed
  have hblank : (Row.blank .newline).IsWellFormed := rfl
  -- the sheet is lexed to its words and comments
  have hstamped := Lexing.ofText_sheet hset
  obtain ⟨hwords, hnotes⟩ := hstamped.essence hset
  obtain ⟨hwordLines, hnoteLines⟩ := hstamped.lines hset
  rw [s.flatMap_essence_sheet (hreads.forall_laid hblank hwell)] at hwords
  rw [s.flatMap_commentEssence_sheet, sortByOffset_comments h] at hnotes
  rw [← toList_layout h] at hstamped hwords hnotes hwordLines hnoteLines
  -- and these are parsed to its scene
  have hbare : Scene.Reads True { s with comments := [] } rows := hreads
  obtain ⟨herrors, hscene⟩ := Parsing.ofTokens_essence hbare rfl
    (fun r hr => ⟨hwell r hr, (hwell r hr).isSkipped⟩) hwords limit
  have hpages := congrArg Scene.pages hscene
  have hcomments (comments : List Token) :
      (comments.map Comment.mk).map Comment.token = comments := by
    rw [List.map_map]
    exact List.map_id _
  refine ⟨_, _, inLocale_eq hstamped.errors herrors, ?_, ?_, hwordLines, ?_⟩
  · exact hpages
  · rw [hcomments, hnotes]
  · rw [hcomments, hnoteLines]

/-- A printed scene is read in its locale to essentially the same scene, and printed in the same way
    again. -/
theorem Reading.reread_inLocale (h : ofText o text = success locale s tokens)
    (hfit : CaptionsFit locale tokens) (limit : Nat) :
    ∃ s' tokens', inLocale locale limit s.layout.toList = success locale s' tokens' ∧
      s'.essence = s.essence ∧ s'.layout = s.layout := by
  obtain ⟨s', tokens', hread, hsame⟩ := exists_isReread h hfit limit
  have hread' : ofText ⟨.fixed locale, false, limit⟩ s.layout.toList = success locale s' tokens' :=
    (ofText_eq_inLocale rfl).trans hread
  refine ⟨s', tokens', hread, Scene.essence_of_map_eq hsame.pages hsame.comments,
    String.toList_inj.1 ?_⟩
  rw [toList_layout hread', toList_layout h]
  refine sheetChars_eq (isShown_sheet h) (isShown_sheet hread') ?_
  refine map_essence_arrange (n := 1) ?_ (Scene.passages_of_map_eq hsame.pages)
    (isPlaced_passages h) (isPlaced_passages hread') ?_ ?_
  · rw [sortByOffset_comments hread', sortByOffset_comments h, hsame.comments]
  · rw [sortByOffset_comments hread']
    exact hsame.commentLines
  · rw [flatMap_words hread']
    exact hsame.wordLines

end Reread

end Wireframe
