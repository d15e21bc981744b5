import Mathlib.Data.List.Forall2
import Wireframe.Proofs.Detection
import Wireframe.Proofs.Grammar.Exchange

/-!
# Comment lines

Comment lines can be put between the lines of a text, anywhere and as many as one likes: the grammar
does not see them.

* `CommentLine`, `Insertion`: a line that is a comment, and one that is put
  after some lines of a text.
* `Lexing.ofText_commentLine`: a comment line has its comment in it and nothing else, as the comment
  takes the line end with it.
* `Lexing.ofText_annotated`: so in a text with comment lines put in all else is as it was, further
  down by the comment lines before it.
* `Parsing.ofTokens_below`: and it is parsed as it was, as a parse does not look at places.
* `Lexing.exists_lineEnd`: a comment after a token, on the other hand, leaves the line end alone.
-/

namespace Wireframe

open Text

/-! ## Comment lines -/

/-- A line that is a comment, with the spaces and tabs before it and its line break. -/
structure CommentLine where
  margin : List Char
  body : List Char
  lineBreak : LineBreak
  isGap_margin : ∀ c ∈ margin, isGap c = true
  isBreak_body : ∀ c ∈ body, Shape.isBreak c = false

namespace CommentLine

variable (line : CommentLine)

/-- The comment of a line. -/
def comment : List Char :=
  '/' :: '/' :: line.body

/-- The text of a line. -/
def chars : List Char :=
  line.margin ++ (line.comment ++ line.lineBreak.chars)

/-- The comment of a line as it is in a text, given the text before the line. -/
def token (before : List Char) : Token :=
  ⟨.comment, String.ofList line.comment, .ofText (byteLength (before ++ line.margin))
    (Position.start.advance (before ++ line.margin)) line.comment⟩

theorem count_chars : line.chars.count '\n' = 1 := by
  have hmargin : '\n' ∉ line.margin := fun h => absurd (line.isGap_margin _ h) (by decide)
  have hbody : '\n' ∉ line.body := fun h => absurd (line.isBreak_body _ h) (by decide)
  have hbreak : line.lineBreak.chars.count '\n' = 1 := by cases line.lineBreak <;> rfl
  rw [chars, comment, List.count_append, List.count_append, List.count_eq_zero_of_not_mem hmargin,
    hbreak, List.count_cons_of_ne (by decide), List.count_cons_of_ne (by decide),
    List.count_eq_zero_of_not_mem hbody]

theorem getLast?_chars : line.chars.getLast? = some '\n' := by
  have hbreak : line.lineBreak.chars.getLast? = some '\n' := by cases line.lineBreak <;> rfl
  rw [chars, List.getLast?_append, List.getLast?_append, hbreak]
  rfl

/-- A comment line is cut into its margin, its comment and its line break. -/
theorem pieces_chars (locale : Locale) : locale.pieces line.chars =
    (if line.margin = [] then [] else [.lexeme .blanks line.margin]) ++
      [.lexeme .comment line.comment, .lexeme .lineEnd line.lineBreak.chars] := by
  have hbreak : cut locale.regularTerminals (line.lineBreak.chars ++ []) =
      [.lexeme .lineEnd line.lineBreak.chars] := by
    rw [cut_append, cut_nil]
    refine lexemeAt?_of_lineEndLength? ?_
    cases line.lineBreak <;> rfl
  have hcomment : cut locale.regularTerminals (line.comment ++ line.lineBreak.chars) =
      [.lexeme .comment line.comment, .lexeme .lineEnd line.lineBreak.chars] := by
    rw [List.append_nil] at hbreak
    rw [cut_append, hbreak]
    obtain ⟨stop, more, hchars, hstop⟩ := line.lineBreak.exists_cons
    -- the comment takes its body, up to the line break
    have htake : (line.body ++ stop :: more).takeWhile (!Shape.isBreak ·) = line.body := by
      rw [takeWhile_stop _ _ (by rw [hstop]; rfl), List.takeWhile_eq_self_iff]
      exact fun c hc => by rw [line.isBreak_body c hc]; rfl
    rw [lexemeAt?, comment, hchars, List.cons_append, List.cons_append,
      longestMatch?_slashes, htake]
    exact congrArg (fun n => some (TokenKind.comment, n)) (Nat.add_comm 2 line.body.length)
  rw [Locale.pieces, chars]
  split
  · next hnil => rw [hnil, List.nil_append, hcomment, List.nil_append]
  · next hne =>
    rw [cut_append, hcomment]
    · rfl
    · rw [lexemeAt?, comment, List.cons_append, longestMatch?_gaps line.isGap_margin hne (by decide)
        (by decide)]

end CommentLine

theorem Lexing.ofText_commentLine (locale : Locale) (line : CommentLine) :
    ofText locale line.chars = ⟨[], [line.token []], []⟩ := by
  rw [ofText, line.pieces_chars, ofPieces]
  split
  · next hnil =>
    rw [CommentLine.token, hnil]
    rfl
  · rw [CommentLine.token, List.nil_append, ← Nat.zero_add (byteLength line.margin)]
    rfl

/-! ## Texts with comment lines put in -/

/-- Lines of a text, and the comment line that is put after them. -/
structure Insertion where
  before : List Char
  line : CommentLine
  endsLine : before = [] ∨ before.getLast? = some '\n'

/-- The text that comment lines are put into. -/
def plainText (insertions : List Insertion) (last : List Char) : List Char :=
  insertions.flatMap Insertion.before ++ last

/-- The text with the comment lines in it. -/
def annotatedText (insertions : List Insertion) (last : List Char) : List Char :=
  insertions.flatMap (fun i => i.before ++ i.line.chars) ++ last

/-- The bytes and the lines that are put in up to an offset. -/
def insertedUpTo : List Insertion → Nat → Nat × Nat
  | [], _ => (0, 0)
  | i :: insertions, offset =>
    if offset < byteLength i.before then (0, 0)
    else
      let more := insertedUpTo insertions (offset - byteLength i.before)
      (more.1 + byteLength i.line.chars, more.2 + 1)

/-- The comments that are put in, given the text before. -/
def insertedComments (before : List Char) : List Insertion → List Token
  | [] => []
  | i :: insertions => i.line.token (before ++ i.before) ::
      insertedComments (before ++ (i.before ++ i.line.chars)) insertions

/-- A range further down by the comment lines that are put in before it. -/
def Range.below (insertions : List Insertion) (r : Range) : Range :=
  r.moved (insertedUpTo insertions r.span.start).1 (insertedUpTo insertions r.span.start).2

/-- A token further down by the comment lines that are put in before it. -/
def Token.below (insertions : List Insertion) (t : Token) : Token :=
  { t with range := t.range.below insertions }

/-- A lexing error further down by the comment lines that are put in before it. -/
def LexError.below (insertions : List Insertion) (e : LexError) : LexError :=
  { e with range := e.range.below insertions }

section Places

variable {i : Insertion} {insertions : List Insertion}

theorem Range.moved_moved (bytes lines bytes' lines' : Nat) (r : Range) :
    (r.moved bytes lines).moved bytes' lines' = r.moved (bytes + bytes') (lines + lines') := by
  simp only [moved, Position.down, Nat.add_assoc]

/-- What is before the first comment line stays. -/
theorem Range.below_of_lt {r : Range} (h : r.span.start < byteLength i.before) :
    r.below (i :: insertions) = r := by
  rw [below, insertedUpTo, if_pos h]
  rfl

/-- What is after the first comment line is moved by it, and by the others. -/
theorem Range.below_moved (lines : Nat) (r : Range) :
    (r.moved (byteLength i.before) lines).below (i :: insertions) =
      (r.below insertions).moved (byteLength (i.before ++ i.line.chars)) (lines + 1) := by
  have hafter : insertedUpTo (i :: insertions) (r.span.start + byteLength i.before) =
      ((insertedUpTo insertions r.span.start).1 + byteLength i.line.chars,
        (insertedUpTo insertions r.span.start).2 + 1) := by
    rw [insertedUpTo, if_neg (by omega), Nat.add_sub_cancel]
  have hstart : (r.moved (byteLength i.before) lines).span.start =
      r.span.start + byteLength i.before := rfl
  rw [below, below, hstart, hafter, moved_moved, moved_moved, byteLength_append]
  exact congrArg₂ (Range.moved · · r) (by omega) (by omega)

/-- A comment line further down is a comment line after more text. -/
theorem CommentLine.token_append (line : CommentLine) {front : List Char}
    (hfront : front = [] ∨ front.getLast? = some '\n') (before : List Char) :
    line.token (front ++ before) =
      (line.token before).moved (byteLength front) (front.count '\n') := by
  rw [token, token, Token.moved, List.append_assoc, byteLength_append, Position.advance_append,
    Position.advance_lines hfront, Position.advance_down, Nat.add_comm, Range.ofText_moved]

theorem insertedComments_append (insertions : List Insertion) {front : List Char}
    (hfront : front = [] ∨ front.getLast? = some '\n') (before : List Char) :
    insertedComments (front ++ before) insertions =
      (insertedComments before insertions).map (.moved (byteLength front) (front.count '\n')) := by
  induction insertions generalizing before with
  | nil => rfl
  | cons i insertions ih =>
    rw [insertedComments, insertedComments, List.map_cons, List.append_assoc,
      i.line.token_append hfront, List.append_assoc, ih]

/-- What is in two halves is changed half by half: the first stays, the second was moved before. -/
theorem map_halves {α : Type} {below below' moved moved' : α → α} {front : List α}
    (hfront : ∀ a ∈ front, below a = a) (hmore : ∀ a, below (moved a) = moved' (below' a))
    (more : List α) :
    (front ++ more.map moved).map below = front ++ (more.map below').map moved' := by
  have hstay : front.map below = front := (List.map_congr_left hfront).trans (List.map_id _)
  rw [List.map_append, hstay, List.map_map, List.map_map]
  exact congrArg (front ++ ·) (List.map_congr_left fun a _ => hmore a)

theorem Insertion.endsLine_append (i : Insertion) :
    i.before ++ i.line.chars = [] ∨ (i.before ++ i.line.chars).getLast? = some '\n' := by
  rw [List.getLast?_append, i.line.getLast?_chars]
  exact .inr rfl

theorem plainText_cons (i : Insertion) (insertions : List Insertion) (last : List Char) :
    plainText (i :: insertions) last = i.before ++ plainText insertions last := by
  rw [plainText, List.flatMap_cons, List.append_assoc, plainText]

theorem annotatedText_cons (i : Insertion) (insertions : List Insertion) (last : List Char) :
    annotatedText (i :: insertions) last =
      i.before ++ i.line.chars ++ annotatedText insertions last := by
  rw [annotatedText, List.flatMap_cons, List.append_assoc, annotatedText]

/-- Of the comments that are put in the first is in its line, and the others are after this line. -/
theorem insertedComments_cons (i : Insertion) (insertions : List Insertion) :
    insertedComments [] (i :: insertions) =
      (i.line.token []).moved (byteLength i.before) (i.before.count '\n') ::
        (insertedComments [] insertions).map
          (.moved (byteLength (i.before ++ i.line.chars)) (i.before.count '\n' + 1)) := by
  have hlater := insertedComments_append insertions i.endsLine_append []
  rw [List.append_nil, List.count_append, i.line.count_chars] at hlater
  rw [insertedComments, List.nil_append, List.nil_append, hlater, ← i.line.token_append i.endsLine,
    List.append_nil]

/-- Tokens of the lines before the first comment line stay, and the others go
    further down with it. -/
theorem Token.map_below {front : List Token}
    (hfront : ∀ t ∈ front, t.range.span.start < byteLength i.before) (more : List Token) :
    (front ++ more.map (Token.moved (byteLength i.before) (i.before.count '\n'))).map
        (Token.below (i :: insertions)) =
      front ++ (more.map (Token.below insertions)).map
        (Token.moved (byteLength (i.before ++ i.line.chars)) (i.before.count '\n' + 1)) :=
  map_halves (fun t ht => congrArg (Token.mk t.kind t.image) (Range.below_of_lt (hfront t ht)))
    (fun t => congrArg (Token.mk t.kind t.image) (Range.below_moved _ t.range)) more

/-- And so do errors. -/
theorem LexError.map_below {front : List LexError}
    (hfront : ∀ e ∈ front, e.range.span.start < byteLength i.before) (more : List LexError) :
    (front ++ more.map (LexError.moved (byteLength i.before) (i.before.count '\n'))).map
        (LexError.below (i :: insertions)) =
      front ++ (more.map (LexError.below insertions)).map
        (LexError.moved (byteLength (i.before ++ i.line.chars)) (i.before.count '\n' + 1)) :=
  map_halves (fun e he => congrArg (LexError.mk e.fault) (Range.below_of_lt (hfront e he)))
    (fun e => congrArg (LexError.mk e.fault) (Range.below_moved _ e.range)) more

end Places

namespace Lexing

theorem start_lt (locale : Locale) (text : List Char) :
    (∀ t ∈ (ofText locale text).tokens ++ (ofText locale text).comments,
      t.range.span.start < byteLength text) ∧
    ∀ e ∈ (ofText locale text).errors, e.range.span.start < byteLength text := by
  have h := isSegmented_segmentsOf locale text
  rw [h.tokens_eq, h.comments_eq, h.errors_eq]
  refine ⟨fun t ht => ?_, fun e he => ?_⟩
  · rcases List.mem_append.1 ht with ht | ht
    · obtain ⟨segment, hmem, hsegment⟩ := List.mem_filterMap.1 ht
      obtain rfl := mem_of_token? hsegment
      exact h.start_lt hmem rfl
    · obtain ⟨segment, hmem, hsegment⟩ := List.mem_filterMap.1 ht
      refine h.start_lt hmem ?_
      cases segment <;> cases hsegment
      rfl
  · obtain ⟨segment, hmem, hsegment⟩ := List.mem_filterMap.1 he
    exact h.start_lt hmem (Segment.range_of_error? hsegment)

/-- In a text with comment lines put in, all that was in the text is further down, nothing is
    missing and only the comments are new. -/
theorem ofText_annotated (locale : Locale) (insertions : List Insertion) (last : List Char) :
    (ofText locale (annotatedText insertions last)).tokens =
        (ofText locale (plainText insertions last)).tokens.map (Token.below insertions) ∧
      (ofText locale (annotatedText insertions last)).errors =
        (ofText locale (plainText insertions last)).errors.map (LexError.below insertions) ∧
      (ofText locale (annotatedText insertions last)).comments.Perm
        ((ofText locale (plainText insertions last)).comments.map (Token.below insertions) ++
          insertedComments [] insertions) := by
  induction insertions with
  | nil =>
    have hid : ∀ tokens : List Token, tokens.map (Token.below []) = tokens :=
      fun tokens => List.map_id _
    rw [hid, hid, insertedComments, List.append_nil]
    exact ⟨rfl, (List.map_id _).symm, .refl _⟩
  | cons i insertions ih =>
    obtain ⟨htokens, herrors, hcomments⟩ := ih
    obtain ⟨hstart, hstartErrors⟩ := start_lt locale i.before
    -- both texts are lexed line by line, and the comment line gives its comment only
    rw [plainText_cons, annotatedText_cons, ofText_lines locale i.endsLine,
      ofText_lines locale i.endsLine_append, ofText_lines locale i.endsLine, ofText_commentLine,
      List.count_append, i.line.count_chars]
    simp only [append, moved, List.map_nil, List.append_nil, List.map_cons]
    rw [htokens, herrors, Token.map_below fun t ht => hstart t (List.mem_append_left _ ht),
      Token.map_below fun t ht => hstart t (List.mem_append_right _ ht),
      LexError.map_below hstartErrors]
    refine ⟨rfl, rfl, ?_⟩
    rw [insertedComments_cons, List.append_assoc, List.append_assoc]
    have hperm := hcomments.map
      (Token.moved (byteLength (i.before ++ i.line.chars)) (i.before.count '\n' + 1))
    rw [List.map_append] at hperm
    exact .append_left _ ((hperm.cons _).trans List.perm_middle.symm)

end Lexing

/-! ## The parse of a text with comment lines -/

/-- A parse error some bytes and some lines further down. -/
def ParseError.moved (bytes lines : Nat) (e : ParseError) : ParseError :=
  ⟨e.expectation, e.found.map (Token.moved bytes lines), e.range.moved bytes lines, e.path⟩

theorem Token.isRenaming_below (insertions : List Insertion) :
    IsRenaming (Token.below insertions) where
  kind _ := rfl
  count? _ := rfl

namespace Parsing

/-- The end of tokens is moved as the last one is. -/
theorem finishOf_below (insertions : List Insertion) (tokens : List Token) : ∃ bytes lines,
    finishOf (tokens.map (Token.below insertions)) = (finishOf tokens).moved bytes lines := by
  rw [finishOf, finishOf, List.getLast?_map]
  cases tokens.getLast? with
  | none => exact ⟨0, 0, rfl⟩
  | some last => exact ⟨_, _, rfl⟩

/-- Tokens further down are parsed to the same scene and the same errors, further down. -/
theorem ofTokens_below (insertions : List Insertion) (limit : Nat) (tokens : List Token) :
    (ofTokens limit (tokens.map (Token.below insertions))).scene =
        (ofTokens limit tokens).scene.map (Token.below insertions) ∧
      List.Forall₂ (fun e e' => ∃ bytes lines, e' = ParseError.moved bytes lines e)
        (ofTokens limit tokens).errors
        (ofTokens limit (tokens.map (Token.below insertions))).errors := by
  rw [ofTokens_exchanged (Token.isRenaming_below insertions)]
  refine ⟨rfl, ?_⟩
  rw [Parsing.map, List.forall₂_map_right_iff, List.forall₂_same]
  intro e he
  have hat : e.range = _ := isAt_of_mem_errors he
  obtain ⟨expectation, found, range, path⟩ := e
  cases found with
  | none =>
    obtain rfl : range = finishOf (kept tokens) := hat
    obtain ⟨bytes, lines, hfinish⟩ := finishOf_below insertions (kept tokens)
    exact ⟨bytes, lines, congrArg (ParseError.mk expectation none · path) hfinish⟩
  | some t =>
    obtain rfl : range = t.range := hat
    exact ⟨_, _, rfl⟩

end Parsing

/-! ## Comments after tokens -/

theorem Position.line_lt_advance (p : Position) {text : List Char} (h : '\n' ∈ text) :
    p.line < (p.advance text).line := by
  obtain ⟨front, back, rfl⟩ := List.append_of_mem h
  rw [advance_append]
  have hfront := line_le_advance p front
  have hback := line_le_advance ((p.advance front).step '\n') back
  exact Nat.lt_of_le_of_lt hfront hback

section LineEnds

variable {pieces more : List Piece} {words front back : List TokenKind} {kind : TokenKind}

/-- Where no line ends the words of a line add up. -/
theorem wordsOfLine_append (h : ∀ piece ∈ more, piece.kind? ≠ some .lineEnd) :
    wordsOfLine (pieces ++ more) = wordsOfLine pieces ++ wordsOfLine more := by
  induction more using List.reverseRecOn with
  | nil => rw [List.append_nil]; exact (List.append_nil _).symm
  | append_singleton more piece ih =>
    obtain ⟨hmore, hpiece⟩ := List.forall_mem_append.1 h
    rw [← List.append_assoc, wordsOfLine_concat, wordsOfLine_concat, ih hmore]
    cases piece with
    | stray image => rfl
    | lexeme kind image =>
      cases kind with
      | lineEnd => exact absurd rfl (hpiece _ List.mem_cons_self)
      | blanks => rfl
      | _ => exact List.append_assoc ..

theorem wordsOfLine_cons (hblanks : kind ≠ .blanks) (hlineEnd : kind ≠ .lineEnd) (image : List Char)
    (h : ∀ piece ∈ more, piece.kind? ≠ some .lineEnd) :
    wordsOfLine (.lexeme kind image :: more) = kind :: wordsOfLine more := by
  have hone : wordsOfLine [.lexeme kind image] = [kind] := by
    cases kind <;> first | rfl | contradiction
  rw [← List.singleton_append, wordsOfLine_append h, hone]
  rfl

/-- A line with a token before a comment does not lead with a comment. -/
theorem leadsWithComment_eq_false (hkind : kind ≠ .comment) (hcomment : .comment ∈ back) :
    leadsWithComment (front ++ kind :: back) = false := by
  induction back using List.reverseRecOn with
  | nil => cases hcomment
  | append_singleton back last ih =>
    rw [← List.cons_append, ← List.append_assoc]
    by_cases hlast : last = .comment
    · rw [hlast, leadsWithComment_concat_comment]
      simp [hkind]
    · rw [leadsWithComment_concat hlast]
      refine ih ((List.mem_append.1 hcomment).resolve_right fun h => hlast ?_)
      exact (List.mem_singleton.1 h).symm

end LineEnds

namespace IsSegmented

variable {locale : Locale} {text front back : List Char} {l : Lexing} {segments : List Segment}

/-- A segment begins on the line that the text before it ends on. -/
theorem line_eq (h : IsSegmented locale text l segments) {before after : List Segment}
    {segment : Segment} (hsplit : segments = before ++ segment :: after) {t : Token}
    (ht : segment.range? = some t.range) :
    t.line = (Position.start.advance (textOf before)).line :=
  congrArg (·.start.line) (h.range_eq before segment after hsplit t.range ht)

/-- A line feed is the last character of the segment that it is in. -/
theorem exists_feed (h : IsSegmented locale text l segments)
    (htext : text = front ++ '\n' :: back) :
    ∃ before segment after left, segments = before ++ segment :: after ∧
      segment.piece.kind? = some .lineEnd ∧ segment.piece.image = left ++ ['\n'] ∧
      front = textOf before ++ left := by
  obtain ⟨before, segment, after, left, right, hsplit, himage, hfront, -⟩ :=
    exists_segment (h.splits.flatMap_image.trans htext)
  have hmem : segment.piece ∈ segments.map Segment.piece :=
    List.mem_map_of_mem (hsplit ▸ List.mem_append_right _ List.mem_cons_self)
  obtain ⟨hend, hother⟩ := h.splits.lineFeed _ hmem
  have hkind : segment.piece.kind? = some .lineEnd := Decidable.byContradiction fun hne =>
    hother hne (himage ▸ List.mem_append_right _ List.mem_cons_self)
  obtain ⟨line, hline, hnotMem⟩ := hend hkind
  obtain ⟨-, -, rfl⟩ : line = left ∧ '\n' = '\n' ∧ [] = right :=
    (List.append_cons_inj_of_notMem hnotMem List.not_mem_nil).1 (hline.symm.trans himage)
  exact ⟨before, segment, after, left, hsplit, hkind, himage, hfront⟩

/-- What begins before a segment comes before it. -/
theorem mem_of_start_lt (h : IsSegmented locale text l segments) {before after : List Segment}
    {segment other : Segment} (hsplit : segments = before ++ segment :: after)
    (hmem : other ∈ segments) {range : Range} (hrange : range ∈ other.range?)
    (hlt : range.span.start < byteLength (textOf before)) : other ∈ before := by
  rw [hsplit] at hmem
  rcases List.mem_append.1 hmem with hmem | hmem
  · exact hmem
  rcases List.mem_cons.1 hmem with rfl | hmem
  · rw [h.span_eq hsplit hrange] at hlt
    exact absurd hlt (Nat.lt_irrefl _)
  · obtain ⟨more, last, rfl⟩ := List.append_of_mem hmem
    have hsplit' : segments = (before ++ segment :: more) ++ other :: last := by rw [hsplit]; simp
    rw [h.span_eq hsplit' hrange, textOf_append, byteLength_append] at hlt
    dsimp only at hlt
    omega

/-- What begins no further down than a line feed comes before the segment of this line feed. -/
theorem mem_of_line_le (h : IsSegmented locale text l segments) {before after : List Segment}
    {segment : Segment} {left : List Char} (hsplit : segments = before ++ segment :: after)
    (himage : segment.piece.image = left ++ ['\n']) {c : Token} (hmem : .comment c ∈ segments)
    (hne : segment ≠ .comment c)
    (hline : c.line ≤ (Position.start.advance (textOf before ++ left)).line) :
    .comment c ∈ before := by
  rw [hsplit] at hmem
  rcases List.mem_append.1 hmem with hmem | hmem
  · exact hmem
  rcases List.mem_cons.1 hmem with heq | hmem
  · exact absurd heq.symm hne
  · obtain ⟨more, last, rfl⟩ := List.append_of_mem hmem
    have hsplit' : segments = (before ++ segment :: more) ++ .comment c :: last := by
      rw [hsplit]; simp
    have hplace : c.line = _ := h.line_eq hsplit' rfl
    have htext : textOf (before ++ segment :: more) =
        textOf before ++ left ++ '\n' :: textOf more := by
      have hcons : textOf (segment :: more) = segment.piece.image ++ textOf more := rfl
      rw [textOf_append, hcons, himage]
      simp
    rw [hplace, htext, Position.advance_append _ (textOf before ++ left)] at hline
    exact absurd hline (Nat.not_le.2 (Position.line_lt_advance _ List.mem_cons_self))

/-- Where the text of some segments stays on a line, none of them is a line end. -/
theorem kind?_ne_lineEnd (h : IsSegmented locale text l segments) {before more after : List Segment}
    (hsplit : segments = before ++ (more ++ after)) (hmore : '\n' ∉ textOf more) :
    ∀ piece ∈ more.map Segment.piece, piece.kind? ≠ some .lineEnd := by
  intro piece hmem hkind
  have hall : piece ∈ segments.map Segment.piece := by
    rw [hsplit, List.map_append, List.map_append]
    exact List.mem_append_right _ (List.mem_append_left _ hmem)
  obtain ⟨line, hline, -⟩ := (h.splits.lineFeed piece hall).1 hkind
  refine hmore (List.mem_flatMap.2 ⟨piece, hmem, ?_⟩)
  rw [hline]
  exact List.mem_append_right _ List.mem_cons_self

/-- The words from a token on, with a comment among them, do not lead with a comment. -/
theorem leadsWithComment_words (h : IsSegmented locale text l segments) {t c : Token}
    (ht : .token t ∈ segments) (hc : .comment c ∈ segments) {between last : List Segment}
    (hkinds : ∀ piece ∈ (Segment.token t :: (between ++ .comment c :: last)).map Segment.piece,
      piece.kind? ≠ some .lineEnd) (words : List TokenKind) :
    leadsWithComment (words ++
      wordsOfLine ((Segment.token t :: (between ++ .comment c :: last)).map Segment.piece)) =
      false := by
  rw [List.map_cons, List.map_append, List.map_cons] at hkinds ⊢
  obtain ⟨htoken, hrest⟩ := List.forall_mem_cons.1 hkinds
  obtain ⟨-, hcomment⟩ := List.forall_mem_append.1 hrest
  obtain ⟨-, hlast⟩ := List.forall_mem_cons.1 hcomment
  have hskipped := h.kind_token t ht
  have hblanks : t.kind ≠ .blanks := fun heq => by rw [heq] at hskipped; cases hskipped
  have hkind : t.kind ≠ .comment := fun heq => by rw [heq] at hskipped; cases hskipped
  have hlineEnd : t.kind ≠ .lineEnd := fun heq => htoken (congrArg some heq)
  have hwords : wordsOfLine ((Segment.comment c).piece :: last.map Segment.piece) =
      .comment :: wordsOfLine (last.map Segment.piece) := by
    rw [Segment.piece, h.kind_comment c hc]
    exact wordsOfLine_cons (by decide) (by decide) _ hlast
  -- the token is the first word of the line, and the comment a later one
  rw [Segment.piece, wordsOfLine_cons hblanks hlineEnd _ hrest]
  refine leadsWithComment_eq_false hkind ?_
  rw [wordsOfLine_append hcomment, hwords]
  exact List.mem_append_right _ List.mem_cons_self

/-- A line with a comment after a token does not lead with a comment. -/
theorem not_leadsWithComment (h : IsSegmented locale text l segments) {before after : List Segment}
    {segment : Segment} {left : List Char} (hsplit : segments = before ++ segment :: after)
    (hkind : segment.piece.kind? = some .lineEnd) (himage : segment.piece.image = left ++ ['\n'])
    {t c : Token} (ht : t ∈ l.tokens) (hc : c ∈ l.comments) (hlt : t.offset < c.offset)
    (htline : t.line = (Position.start.advance (textOf before ++ left)).line)
    (hcline : c.line = (Position.start.advance (textOf before ++ left)).line) :
    leadsWithComment (wordsOfLine (before.map Segment.piece)) = false := by
  rw [h.tokens_eq] at ht
  rw [h.comments_eq] at hc
  obtain ⟨s, hs, hsegment⟩ := List.mem_filterMap.1 ht
  obtain rfl := mem_of_token? hsegment
  obtain ⟨s', hs', hsegment'⟩ := List.mem_filterMap.1 hc
  obtain rfl : s' = .comment c := by cases s' <;> cases hsegment'; rfl
  have hne : segment ≠ .comment c := by
    rintro rfl
    rw [Segment.piece, Piece.kind?, h.kind_comment c hs'] at hkind
    cases hkind
  obtain ⟨first, last, rfl⟩ :=
    List.append_of_mem (h.mem_of_line_le hsplit himage hs' hne (Nat.le_of_eq hcline))
  have hcsplit : segments = first ++ .comment c :: (last ++ segment :: after) := by
    rw [hsplit]; simp
  rw [h.offset_eq hcsplit rfl] at hlt
  obtain ⟨first, between, rfl⟩ := List.append_of_mem (h.mem_of_start_lt hcsplit hs rfl hlt)
  -- from the token on there is no line feed before the one that ends the line
  have htsplit :
      segments = first ++ .token t :: (between ++ .comment c :: (last ++ segment :: after)) := by
    rw [hsplit]; simp
  have hbefore : first ++ .token t :: between ++ .comment c :: last =
      first ++ .token t :: (between ++ .comment c :: last) := by simp
  have hfeed : '\n' ∉ textOf (.token t :: (between ++ .comment c :: last)) := by
    intro hmem
    rw [hbefore, textOf_append, List.append_assoc, Position.advance_append,
      h.line_eq htsplit rfl] at htline
    exact absurd htline (Nat.ne_of_lt (Position.line_lt_advance _ (List.mem_append_left left hmem)))
  have hkinds := h.kind?_ne_lineEnd (hsplit.trans (by rw [hbefore, List.append_assoc])) hfeed
  rw [hbefore, List.map_append, wordsOfLine_append hkinds]
  exact h.leadsWithComment_words hs hs' hkinds _

end IsSegmented

/-- A comment after a token on its line leaves the line end. -/
theorem Lexing.exists_lineEnd {locale : Locale} {text front back : List Char}
    (htext : text = front ++ '\n' :: back) {t c : Token} (ht : t ∈ (ofText locale text).tokens)
    (hc : c ∈ (ofText locale text).comments) (hlt : t.offset < c.offset)
    (htline : t.line = (Position.start.advance front).line)
    (hcline : c.line = (Position.start.advance front).line) :
    ∃ e ∈ (ofText locale text).tokens, e.kind = .lineEnd ∧
      e.range.span.stop = byteLength (front ++ ['\n']) := by
  have h := isSegmented_segmentsOf locale text
  obtain ⟨before, segment, after, left, hsplit, hkind, himage, rfl⟩ := h.exists_feed htext
  have hleads := h.not_leadsWithComment hsplit hkind himage ht hc hlt htline hcline
  have hdrops := dropsLineEnds_segmentsOf locale text before segment after hsplit hkind
  have hmem : segment ∈ segmentsOf locale text :=
    hsplit ▸ List.mem_append_right _ List.mem_cons_self
  -- the line feed ends a token, or the line of a comment that is alone on it
  cases segment with
  | token e =>
    refine ⟨e, h.tokens_eq ▸ List.mem_filterMap.2 ⟨_, hmem, rfl⟩, Option.some.inj hkind, ?_⟩
    rw [h.span_eq hsplit rfl, himage, List.append_assoc, byteLength_append (textOf before)]
  | comment e =>
    rw [Segment.piece, Piece.kind?, h.kind_comment e hmem] at hkind
    cases hkind
  | blanks image => cases hkind
  | commentEnd image =>
    rw [hdrops.1 ⟨image, rfl⟩] at hleads
    cases hleads
  | stray image range => cases hkind

/-- Comment lines that are put between the lines of a text change nothing but places: the tokens and
    errors are those of the text, and so is what is parsed from them; of the comments the new ones
    are those of the lines that were put in. A comment that is not on a line of its own leaves the
    line end in its place. -/
theorem Lexing.annotated_spec (locale : Locale) (insertions : List Insertion) (last : List Char) :
    let plain := ofText locale (plainText insertions last)
    let annotated := ofText locale (annotatedText insertions last)
    annotated.tokens = plain.tokens.map (Token.below insertions) ∧
      annotated.errors = plain.errors.map (LexError.below insertions) ∧
      annotated.comments.Perm
        (plain.comments.map (Token.below insertions) ++ insertedComments [] insertions) ∧
      InOrder annotated.comments ∧
      (∀ limit, (Parsing.ofTokens limit annotated.tokens).scene =
          (Parsing.ofTokens limit plain.tokens).scene.map (Token.below insertions) ∧
        List.Forall₂ (fun e e' => ∃ bytes lines, e' = ParseError.moved bytes lines e)
          (Parsing.ofTokens limit plain.tokens).errors
          (Parsing.ofTokens limit annotated.tokens).errors) ∧
      ∀ text front back, text = front ++ '\n' :: back →
        ∀ t ∈ (ofText locale text).tokens, ∀ c ∈ (ofText locale text).comments,
          t.offset < c.offset → t.line = (Position.start.advance front).line →
            c.line = (Position.start.advance front).line →
              ∃ e ∈ (ofText locale text).tokens, e.kind = .lineEnd ∧
                e.range.span.stop = byteLength (front ++ ['\n']) := by
  obtain ⟨htokens, herrors, hcomments⟩ := ofText_annotated locale insertions last
  obtain ⟨all, horder, -, hall⟩ := exists_inOrder locale (annotatedText insertions last)
  refine ⟨htokens, herrors, hcomments, hall ▸ horder.sublist List.filter_sublist, fun limit => ?_,
    fun text front back htext t ht c hc => exists_lineEnd htext ht hc⟩
  rw [htokens]
  exact Parsing.ofTokens_below insertions limit _

end Wireframe
