import Wireframe.Proofs.Scene.Sheet

/-!
# Lexing a sheet

A sheet whose lines read back is lexed to its own words and comments, each on the line of the sheet
that it is on (`Lexing.ofText_sheet`). What the lexer makes of it is told by *stamps*: the kind of a
token, its characters and its line.

Comments have lines of their own on a sheet, and take the line ends with them.
-/

namespace Wireframe

open Text

/-! ## Stamps -/

/-- What a token is, how it is written, and on which line. -/
structure Stamp where
  kind : TokenKind
  chars : List Char
  line : Nat
  deriving DecidableEq

namespace Token

/-- The stamp of a token. -/
def stamp (t : Token) : Stamp :=
  ⟨t.kind, t.chars, t.line⟩

/-- The stamp of a token that is printed on a line. -/
def stampAt (line : Nat) (t : Token) : Stamp :=
  ⟨t.kind, t.shown, line⟩

theorem stampAt_of_comment {t : Token} (h : t.kind = .comment) (line : Nat) :
    t.stampAt line = ⟨.comment, trim t.chars, line⟩ := by
  rw [stampAt, shown, h]
  rfl

end Token

namespace SheetLine

/-- The stamps of the tokens on a line of a sheet. -/
def tokens : SheetLine × Nat → List Stamp
  | (comment .., _) => []
  | (words _ ws, n) => ws.map (Token.stampAt n) ++ [⟨.lineEnd, ['\n'], n⟩]

/-- The stamps of the comments on a line of a sheet. -/
def comments : SheetLine × Nat → List Stamp
  | (comment _ c, n) => [c.stampAt n]
  | (words .., _) => []

end SheetLine

/-! ## Pieces of a line -/

section Pieces

variable {locale : Locale} {t : Token}

theorem mem_of_mem_trim {text : List Char} {c : Char} (h : c ∈ trim text) : c ∈ text := by
  obtain ⟨blanks, hblanks, -⟩ := exists_trimEnd (text.dropWhile isBlank)
  refine (List.dropWhile_sublist isBlank).subset ?_
  rw [hblanks]
  exact List.mem_append_left _ h

theorem Spelling.mem_squeezed {marks : List Mark} {text squeezed : List Char}
    (h : Spelling marks text squeezed) : ∀ c ∈ squeezed, c ∈ text ∨ c = ' ' := by
  induction h with
  | nil => exact fun _ h => absurd h List.not_mem_nil
  | letter _ _ _ ih =>
    refine List.forall_mem_cons.2 ⟨.inl List.mem_cons_self, fun c hc => ?_⟩
    exact (ih c hc).imp_left (List.mem_cons_of_mem _)
  | gap _ _ _ _ ih =>
    refine List.forall_mem_cons.2 ⟨.inr rfl, fun c hc => ?_⟩
    exact (ih c hc).imp_left (List.mem_append_right _)

/-- No line feed is printed with a word. -/
theorem Token.IsLexeme.lineFeed_notMem (h : t.IsLexeme locale) (ht : t.IsPrinted) :
    '\n' ∉ t.shown := by
  obtain ⟨rest, h⟩ := h
  have hchars : '\n' ∉ t.chars := by
    have := lineFeed_notMem_take ht.ne_lineEnd h
    rwa [List.take_left] at this
  intro hmem
  by_cases hword : t.kind.isWord
  · obtain ⟨-, -, f, -, -, hspelling, -⟩ := exists_form_of_shown h hword
    rcases hspelling.mem_squeezed '\n' hmem with hmem | hmem
    · exact hchars hmem
    · exact absurd hmem (by decide)
  · rw [Token.shown, if_neg hword] at hmem
    exact hchars (mem_of_mem_trim hmem)

/-- Spaces that a line is indented by. -/
def indentPieces (level : Nat) : List Piece :=
  (gapLexemes (List.replicate (4 * level) ' ')).map lexemePiece

theorem cut_indented {c : Char} (hc : isBlank c = false) (hmark : c ≠ '?') (level : Nat)
    (rest : List Char) : cut locale.regularTerminals (List.replicate (4 * level) ' ' ++ c :: rest) =
      indentPieces level ++ cut locale.regularTerminals (c :: rest) :=
  cut_gaps (fun _ hb => (List.mem_replicate.1 hb).2 ▸ rfl) hc hmark rest

theorem trimEnd_cons_of_ne {c : Char} {text : List Char} (hc : isBlank c = false) :
    trimEnd (c :: text) = c :: trimEnd text := by
  rw [trimEnd]
  cases trimEnd text with
  | nil => simp [hc]
  | cons d more => rfl

/-- A trimmed comment is a comment. -/
theorem exists_trim_comment {image text : List Char} (h : image = '/' :: '/' :: text)
    (htext : ∀ d ∈ text, Shape.isBreak d = false) : ∃ shown, trim image = '/' :: '/' :: shown ∧
      ∀ d ∈ shown, Shape.isBreak d = false := by
  have hslash : isBlank '/' = false := by decide
  obtain ⟨blanks, hblanks, -⟩ := exists_trimEnd text
  refine ⟨trimEnd text, ?_, fun d hd => htext d ?_⟩
  · rw [h, trim_cons hslash, trimEnd_cons_of_ne hslash, trimEnd_cons_of_ne hslash]
  · rw [hblanks]
    exact List.mem_append_left _ hd

theorem cut_comment {text : List Char} (htext : ∀ d ∈ text, Shape.isBreak d = false) :
    cut locale.regularTerminals ('/' :: '/' :: text ++ ['\n']) =
      [.lexeme .comment ('/' :: '/' :: text), .lexeme .lineEnd ['\n']] := by
  have htake : (text ++ ['\n']).takeWhile (!Shape.isBreak ·) = text :=
    takeWhile_append_stop (fun d hd => by rw [htext d hd]; rfl) fun _ hd => Option.some.inj hd ▸ rfl
  rw [← @cut_lineFeed locale]
  refine cut_append ?_
  rw [List.cons_append, List.cons_append, lexemeAt?, longestMatch?_slashes, htake, Nat.add_comm]
  rfl

end Pieces

/-! ## Sifting the pieces of a line -/

namespace Lexing

/-- What is lexed without errors, token by token and comment by comment. -/
structure Stamped (l : Lexing) (tokens comments : List Stamp) : Prop where
  tokens : l.tokens.map Token.stamp = tokens
  comments : l.comments.map Token.stamp = comments
  errors : l.errors = []

theorem Stamped.append {l l' : Lexing} {tokens comments tokens' comments' : List Stamp}
    (h : l.Stamped tokens comments) (h' : l'.Stamped tokens' comments') :
    (l.append l').Stamped (tokens ++ tokens') (comments ++ comments') where
  tokens := by rw [Lexing.append, List.map_append, h.tokens, h'.tokens]
  comments := by rw [Lexing.append, List.map_append, h.comments, h'.comments]
  errors := by rw [Lexing.append, h.errors, h'.errors]; rfl

variable {line : LineState} {offset : Nat} {position : Position}

/-- Wherever the lexer comes to some pieces, it makes certain tokens and comments of them. -/
def Stamps (line : LineState) (pieces : List Piece) (tokens comments : Nat → List Stamp) : Prop :=
  ∀ offset position, (sift line (locate offset position pieces)).Stamped (tokens position.line)
    (comments position.line)

/-- Pieces with which no line ends, and what the lexer remembers after them. -/
structure StampsInLine (line : LineState) (pieces : List Piece) (tokens comments : Nat → List Stamp)
    (next : LineState) : Prop where
  stamps : Stamps line pieces tokens comments
  after : line.after pieces = next
  lineFeed : '\n' ∉ pieces.flatMap Piece.image

section StampsInLine

variable {pieces more : List Piece} {tokens comments tokens' comments' : Nat → List Stamp}
  {next next' : LineState}

theorem StampsInLine.stamps_append (h : StampsInLine line pieces tokens comments next)
    (h' : Stamps next more tokens' comments') :
    Stamps line (pieces ++ more) (fun n => tokens n ++ tokens' n)
      fun n => comments n ++ comments' n := by
  intro offset position
  have hmore := h' (offset + byteLength (pieces.flatMap Piece.image))
    (position.advance (pieces.flatMap Piece.image))
  rw [Position.line_advance_of_notMem h.lineFeed] at hmore
  rw [locate_append, sift_append, map_fst_locate, h.after]
  exact (h.stamps offset position).append hmore

theorem StampsInLine.append (h : StampsInLine line pieces tokens comments next)
    (h' : StampsInLine next more tokens' comments' next') :
    StampsInLine line (pieces ++ more) (fun n => tokens n ++ tokens' n)
      (fun n => comments n ++ comments' n) next' where
  stamps := h.stamps_append h'.stamps
  after := by
    have hafter : line.after (pieces ++ more) = (line.after pieces).after more := List.foldl_append
    rw [hafter, h.after, h'.after]
  lineFeed := by
    rw [List.flatMap_append, List.mem_append, not_or]
    exact ⟨h.lineFeed, h'.lineFeed⟩

end StampsInLine

theorem stamps_indentPieces (line : LineState) (level : Nat) :
    StampsInLine line (indentPieces level) (fun _ => []) (fun _ => []) line := by
  have hspaces : '\n' ∉ List.replicate (4 * level) ' ' := fun h =>
    absurd (List.mem_replicate.1 h).2 (by decide)
  rw [indentPieces]
  generalize List.replicate (4 * level) ' ' = blanks at hspaces
  refine ⟨?_, ?_, (flatMap_image_gapLexemes blanks).symm ▸ hspaces⟩
  · cases blanks <;> exact fun _ _ => ⟨rfl, rfl, rfl⟩
  · cases blanks <;> rfl

theorem stamp_ofText (kind : TokenKind) (image : List Char) (offset : Nat) (position : Position) :
    Token.stamp ⟨kind, String.ofList image, .ofText offset position image⟩ =
      ⟨kind, image, position.line⟩ := by
  rw [Token.stamp, Token.chars, String.toList_ofList]
  rfl

/-- The line end of a line without a comment is a token. -/
theorem stamps_lineEnd (hasTokens : Bool) : Stamps ⟨hasTokens, false⟩ [.lexeme .lineEnd ['\n']]
    (fun n => [⟨.lineEnd, ['\n'], n⟩]) fun _ => [] :=
  fun _ _ => ⟨congrArg ([·]) (stamp_ofText _ _ _ _), rfl, rfl⟩

/-- A comment on a line of its own takes the line end with it. -/
theorem stamps_comment (image : List Char) :
    Stamps .fresh [.lexeme .comment image, .lexeme .lineEnd ['\n']] (fun _ => [])
      fun n => [⟨.comment, image, n⟩] :=
  fun _ _ => ⟨rfl, congrArg ([·]) (stamp_ofText _ _ _ _), rfl⟩

theorem stamps_word {kind : TokenKind} (hkind : kind.isPrinted) {image : List Char}
    (h : '\n' ∉ image)
    (line : LineState) : StampsInLine line [.lexeme kind image] (fun n => [⟨kind, image, n⟩])
      (fun _ => []) { line with hasTokens := true } := by
  refine ⟨fun offset position => ?_, ?_, by rwa [List.flatMap_singleton]⟩
  · cases kind <;> first
      | exact ⟨congrArg ([·]) (stamp_ofText _ _ _ _), rfl, rfl⟩
      | exact Bool.noConfusion hkind
  · cases kind <;> first | rfl | exact Bool.noConfusion hkind

/-- The words of a line, one after the other. -/
theorem stamps_linePieces {locale : Locale} {words : List Token} (hne : words ≠ [])
    (hlexeme : ∀ t ∈ words, t.IsLexeme locale) (hprinted : ∀ t ∈ words, t.IsPrinted)
    (line : LineState) :
    StampsInLine line (linePieces words) (fun n => words.map (Token.stampAt n)) (fun _ => [])
      { line with hasTokens := true } := by
  induction words generalizing line with
  | nil => exact absurd rfl hne
  | cons t words ih =>
    obtain ⟨ht, hlexeme⟩ := List.forall_mem_cons.1 hlexeme
    obtain ⟨ht', hprinted⟩ := List.forall_mem_cons.1 hprinted
    have hword := stamps_word ht'.kind (ht.lineFeed_notMem ht') line
    cases words with
    | nil => exact hword
    | cons u words =>
      have hrest := ih (List.cons_ne_nil u words) hlexeme hprinted { line with hasTokens := true }
      have hspace : StampsInLine { line with hasTokens := true }
          (if u.kind = .comma then [] else [.lexeme .blanks [' ']]) (fun _ => []) (fun _ => [])
            { line with hasTokens := true } := by
        split
        · exact ⟨fun _ _ => ⟨rfl, rfl, rfl⟩, rfl, List.not_mem_nil⟩
        · exact ⟨fun _ _ => ⟨rfl, rfl, rfl⟩, rfl, by decide⟩
      exact hword.append (hspace.append hrest)

/-- A line with a comment is lexed to the comment. -/
theorem stamped_comment (locale : Locale) {c : Token} {text : List Char} (level : Nat)
    (hkind : c.kind = .comment) (hchars : c.chars = '/' :: '/' :: text)
    (htext : ∀ d ∈ text, Shape.isBreak d = false) :
    (ofText locale ((SheetLine.comment level c).chars ++ ['\n'])).Stamped [] [c.stampAt 1] ∧
      '\n' ∉ (SheetLine.comment level c).chars := by
  obtain ⟨shown, htrim, hshown⟩ := exists_trim_comment hchars htext
  have hcut : locale.pieces ((SheetLine.comment level c).chars ++ ['\n']) = indentPieces level ++
      [.lexeme .comment ('/' :: '/' :: shown), .lexeme .lineEnd ['\n']] := by
    rw [SheetLine.chars, Locale.pieces, List.append_assoc, htrim, ← cut_comment hshown]
    exact cut_indented (by decide) (by decide) level _
  have hstamp : c.stampAt 1 = ⟨.comment, '/' :: '/' :: shown, 1⟩ := by
    rw [Token.stampAt_of_comment hkind, htrim]
  refine ⟨?_, fun hmem => ?_⟩
  · rw [ofText, ofPieces, hcut, hstamp]
    exact (stamps_indentPieces .fresh level).stamps_append (stamps_comment _) 0 .start
  · rw [SheetLine.chars, htrim] at hmem
    rcases List.mem_append.1 hmem with hmem | hmem
    · exact absurd (List.mem_replicate.1 hmem).2 (by decide)
    · have hrest : '\n' ∈ shown := by simpa using hmem
      exact absurd (hshown '\n' hrest) (by decide)

/-- A line with words is cut into its indentation, the words and its line end. -/
theorem pieces_words {locale : Locale} {t : Token} {ws : List Token} {text : List Char}
    (level : Nat)
    (hwritten : Written locale (t :: ws) text) (hapart : (t :: ws).IsChain (StaysApart locale))
    (hprinted : ∀ u ∈ t :: ws, u.IsPrinted) (hend : ∀ u ∈ t :: ws, u.KeepsEnd) :
    locale.pieces ((SheetLine.words level (t :: ws)).chars ++ ['\n']) =
      indentPieces level ++ linePieces (t :: ws) ++ [.lexeme .lineEnd ['\n']] := by
  rw [SheetLine.chars, Locale.pieces, List.append_assoc, List.append_assoc, ← @cut_lineFeed locale,
    ← hwritten.cut_lineChars hapart hprinted hend []]
  obtain ⟨rest, -, hlexeme⟩ := hwritten.exists_head
  obtain ⟨c, more, hshown, hblank, hmark⟩ :=
    exists_shown_cons hlexeme (hprinted t List.mem_cons_self)
  obtain ⟨tail, htail, -⟩ := exists_lineChars_cons t ws
  rw [htail, hshown]
  exact cut_indented hblank hmark level (more ++ tail ++ ['\n'])

/-- A line of a sheet is lexed to its own words or its comment. -/
theorem stamped_line {locale : Locale} {l : SheetLine} (h : l.IsSet locale) :
    (ofText locale (l.chars ++ ['\n'])).Stamped (SheetLine.tokens (l, 1))
      (SheetLine.comments (l, 1)) ∧ '\n' ∉ l.chars := by
  cases h with
  | comment level hkind hchars htext => exact stamped_comment locale level hkind hchars htext
  | blank level =>
    refine ⟨?_, List.not_mem_nil⟩
    have hcut : locale.pieces ((SheetLine.words level []).chars ++ ['\n']) =
        [.lexeme .lineEnd ['\n']] := cut_lineFeed
    rw [ofText, ofPieces, hcut]
    exact stamps_lineEnd false 0 .start
  | @words ws text level hwritten hapart hprinted hend =>
    -- a line with words has a first one
    obtain ⟨t, ws, rfl⟩ : ∃ t ws', ws = t :: ws' := by
      cases hwritten <;> exact ⟨_, _, rfl⟩
    have hcut := pieces_words level hwritten hapart hprinted hend
    have hwords := (stamps_indentPieces .fresh level).append
      (stamps_linePieces (List.cons_ne_nil t ws) hwritten.isLexeme hprinted .fresh)
    refine ⟨?_, fun hmem => hwords.lineFeed ?_⟩
    · rw [ofText, ofPieces, hcut]
      exact hwords.stamps_append (stamps_lineEnd true) 0 .start
    · have himage := flatMap_image_cut locale ((SheetLine.words level (t :: ws)).chars ++ ['\n'])
      rw [← Locale.pieces, hcut, List.flatMap_append] at himage
      rwa [List.append_cancel_right himage]

theorem map_stamp_moved {f : SheetLine × Nat → List Stamp}
    (hf : ∀ l n, f (l, n + 1) = (f (l, n)).map fun x => { x with line := x.line + 1 })
    {tokens : List Token} {sheet : List SheetLine}
    (h : tokens.map Token.stamp = (sheet.zipIdx 1).flatMap f) (bytes : Nat) :
    (tokens.map (.moved bytes 1)).map Token.stamp = (sheet.zipIdx 2).flatMap f := by
  have hmoved : (tokens.map (.moved bytes 1)).map Token.stamp =
      (tokens.map Token.stamp).map fun x => { x with line := x.line + 1 } := by
    rw [List.map_map, List.map_map]
    rfl
  have hnext : sheet.zipIdx 2 = (sheet.zipIdx 1).map fun x => (x.1, x.2 + 1) := List.zipIdx_succ
  rw [hmoved, h, List.map_flatMap, hnext, List.flatMap_map]
  exact List.flatMap_congr fun (x : SheetLine × Nat) _ => (hf x.1 x.2).symm

/-- A sheet is lexed line by line. -/
theorem ofText_sheet_cons (locale : Locale) {l : SheetLine} (h : '\n' ∉ l.chars)
    (sheet : List SheetLine) : ofText locale (sheetChars (l :: sheet)) =
      (ofText locale (l.chars ++ ['\n'])).append
        ((ofText locale (sheetChars sheet)).moved (byteLength (l.chars ++ ['\n'])) 1) := by
  have hcount : (l.chars ++ ['\n']).count '\n' = 1 := by
    rw [List.count_append, List.count_eq_zero.2 h]
    rfl
  rw [sheetChars, List.flatMap_cons, ← sheetChars, ofText_lines locale (.inr List.getLast?_concat),
    hcount]

/-- On the next line of a sheet there are the same comments. -/
theorem comments_succ (l : SheetLine) (n : Nat) : SheetLine.comments (l, n + 1) =
    (SheetLine.comments (l, n)).map fun x => { x with line := x.line + 1 } := by
  cases l <;> rfl

/-- A sheet is lexed without errors to its own words and comments, each on
    the line that it is on. -/
theorem ofText_sheet {locale : Locale} {sheet : List SheetLine} (h : ∀ l ∈ sheet, l.IsSet locale) :
    (ofText locale (sheetChars sheet)).Stamped ((sheet.zipIdx 1).flatMap SheetLine.tokens)
      ((sheet.zipIdx 1).flatMap SheetLine.comments) := by
  induction sheet with
  | nil =>
    have hcut : locale.pieces [] = [] := cut_nil _
    rw [sheetChars, List.flatMap_nil, ofText, hcut]
    exact ⟨rfl, rfl, rfl⟩
  | cons l sheet ih =>
    obtain ⟨hl, hsheet⟩ := List.forall_mem_cons.1 h
    obtain ⟨hline, hlineFeed⟩ := stamped_line hl
    have hrest := ih hsheet
    rw [ofText_sheet_cons locale hlineFeed]
    refine hline.append ⟨?_, map_stamp_moved comments_succ hrest.comments _, ?_⟩
    · refine map_stamp_moved ?_ hrest.tokens _
      rintro (⟨level, c⟩ | ⟨level, ws⟩) n <;> simp [SheetLine.tokens, Token.stampAt]
    · rw [moved, hrest.errors]
      rfl

end Lexing

end Wireframe
