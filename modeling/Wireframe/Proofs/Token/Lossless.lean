import Mathlib.Data.List.TakeWhile
import Wireframe.Proofs.Token.Shift
import Wireframe.Proofs.Token.Split

/-!
# Lexing loses nothing

Each stretch of a text becomes one thing: a token, a comment, blanks, the end of a line that was
commented out, or an error (`Segment`). `IsSegmented` says that segments are the matches and stray
runs of a text and that a lexing consists of them; `Lexing.lossless` that every text has such
segments, with exact places.

A line end goes with the comment on its line if there is no token before the last comment of the
line (`leadsWithComment`). Where every carriage return stands before a line feed that is: if the
comment is all there is on the line. After a lone carriage return, which ends a comment but not its
line, there can be a token whose line end is lost.
-/

namespace Wireframe

/-! ## The text under a span -/

namespace Span

/-- The characters of a text that start at the offsets of a span, when the text starts at the given
    offset. -/
def sliceFrom (s : Span) : Nat → List Char → List Char
  | _, [] => []
  | offset, c :: rest =>
    if s.contains offset then c :: s.sliceFrom (offset + c.utf8Size) rest
    else s.sliceFrom (offset + c.utf8Size) rest

/-- The characters of a text that start at the offsets of a span. -/
def slice (s : Span) (text : List Char) : List Char :=
  s.sliceFrom 0 text

variable {s : Span} {offset : Nat} {text : List Char}

theorem sliceFrom_append (s : Span) (offset : Nat) (text more : List Char) :
    s.sliceFrom offset (text ++ more) =
      s.sliceFrom offset text ++ s.sliceFrom (offset + byteLength text) more := by
  induction text generalizing offset with
  | nil => rfl
  | cons c text ih =>
    rw [List.cons_append, sliceFrom, sliceFrom, ih, byteLength, Nat.add_assoc]
    split <;> rfl

theorem sliceFrom_of_le (h : s.stop ≤ offset) : s.sliceFrom offset text = [] := by
  induction text generalizing offset with
  | nil => rfl
  | cons c text ih =>
    have hout : s.contains offset = false := by
      rw [contains, Bool.and_eq_false_iff]
      exact .inr (decide_eq_false (Nat.not_lt.2 h))
    rw [sliceFrom, hout, ih (Nat.le_add_right_of_le h)]
    rfl

theorem sliceFrom_of_before (h : offset + byteLength text ≤ s.start) :
    s.sliceFrom offset text = [] := by
  induction text generalizing offset with
  | nil => rfl
  | cons c text ih =>
    rw [byteLength] at h
    have := c.utf8Size_pos
    have hout : s.contains offset = false := by
      rw [contains, Bool.and_eq_false_iff]
      exact .inl (decide_eq_false (by omega))
    rw [sliceFrom, hout, ih (by omega)]
    rfl

theorem sliceFrom_of_within (hstart : s.start ≤ offset)
    (hstop : offset + byteLength text ≤ s.stop) : s.sliceFrom offset text = text := by
  induction text generalizing offset with
  | nil => rfl
  | cons c text ih =>
    rw [byteLength] at hstop
    have := c.utf8Size_pos
    have hin : s.contains offset = true := by
      rw [contains, Bool.and_eq_true]
      exact ⟨decide_eq_true hstart, decide_eq_true (by omega)⟩
    rw [sliceFrom, hin, ih (by omega) (by omega)]
    rfl

/-- Where a text begins and ends in another one tells what it is. -/
theorem slice_append (front text back : List Char) :
    slice ⟨byteLength front, byteLength front + byteLength text⟩
      (front ++ text ++ back) = text := by
  rw [slice, sliceFrom_append, sliceFrom_append, sliceFrom_of_before (by simp),
    sliceFrom_of_within (by simp) (by simp), sliceFrom_of_le (by simp [byteLength_append])]
  exact List.append_nil text

end Span

/-! ## Segments -/

/-- What becomes of a stretch of a text. -/
inductive Segment
  | token (t : Token)
  | comment (t : Token)
  /-- Blanks, which are skipped. -/
  | blanks (image : List Char)
  /-- A line end that goes with the comment on its line. -/
  | commentEnd (image : List Char)
  /-- A run of characters that belong to no token. -/
  | stray (image : List Char) (range : Range)
  deriving DecidableEq, Repr

namespace Segment

/-- The piece of the text that a segment is. -/
def piece : Segment → Piece
  | token t | comment t => .lexeme t.kind t.chars
  | blanks image => .lexeme .blanks image
  | commentEnd image => .lexeme .lineEnd image
  | stray image _ => .stray image

/-- The token that a segment adds to those that the grammar reads. -/
def token? : Segment → Option Token
  | token t => some t
  | _ => none

/-- The token that a segment adds to the comments. -/
def comment? : Segment → Option Token
  | comment t => some t
  | _ => none

/-- The error that a segment gives rise to. -/
def error? : Segment → Option LexError
  | stray (first :: image) range => some ⟨.stray first (first :: image).length, range⟩
  | _ => none

/-- The place of a segment, where it is told. -/
def range? : Segment → Option Range
  | token t | comment t => some t.range
  | stray _ range => some range
  | _ => none

/-- What the lexer makes of a piece, by what it remembers of the line. -/
def ofPiece (line : LineState) (piece : Piece) (range : Range) : Segment :=
  match piece with
  | .stray image => stray image range
  | .lexeme kind image =>
    match kind with
    | .blanks => blanks image
    | .comment => comment ⟨.comment, String.ofList image, range⟩
    | .lineEnd =>
      if line.isComment then commentEnd image else token ⟨.lineEnd, String.ofList image, range⟩
    | _ => token ⟨kind, String.ofList image, range⟩

variable (line : LineState) (range : Range)

theorem piece_ofPiece (piece : Piece) : (ofPiece line piece range).piece = piece := by
  cases piece with
  | stray image => rfl
  | lexeme kind image =>
    have hchars : ∀ kind, Piece.lexeme kind (Token.mk kind (String.ofList image) range).chars =
        .lexeme kind image := fun kind => congrArg _ String.toList_ofList
    cases kind with
    | blanks => rfl
    | lineEnd =>
      rw [ofPiece]
      split
      · rfl
      · exact hchars _
    | _ => exact hchars _

theorem range_of_mem_ofPiece {piece : Piece} {range' : Range}
    (h : range' ∈ (ofPiece line piece range).range?) : range' = range := by
  cases piece with
  | stray image => exact (Option.some.inj h).symm
  | lexeme kind image =>
    cases kind with
    | blanks => cases h
    | lineEnd =>
      rw [ofPiece] at h
      split at h
      · cases h
      · exact (Option.some.inj h).symm
    | _ => exact (Option.some.inj h).symm

theorem kind_of_ofPiece {piece : Piece} {t : Token} :
    (ofPiece line piece range = token t → t.kind.isSkipped = false) ∧
      (ofPiece line piece range = comment t → t.kind = .comment) := by
  cases piece with
  | stray image => exact ⟨nofun, nofun⟩
  | lexeme kind image =>
    cases kind with
    | blanks => exact ⟨nofun, nofun⟩
    | comment => exact ⟨nofun, fun h => Segment.comment.inj h ▸ rfl⟩
    | lineEnd =>
      rw [ofPiece]
      split
      · exact ⟨nofun, nofun⟩
      · exact ⟨fun h => Segment.token.inj h ▸ rfl, nofun⟩
    | _ => exact ⟨fun h => Segment.token.inj h ▸ rfl, nofun⟩

theorem range_of_error? {segment : Segment} {e : LexError} (h : segment.error? = some e) :
    e.range ∈ segment.range? := by
  cases segment with
  | stray image range =>
    cases image with
    | nil => cases h
    | cons first image => exact congrArg (some ·.range) (Option.some.inj h)
  | _ => cases h

theorem sift_ofPiece (piece : Piece) : Lexing.sift line [(piece, range)] =
    ⟨(ofPiece line piece range).token?.toList, (ofPiece line piece range).comment?.toList,
      (ofPiece line piece range).error?.toList⟩ := by
  cases piece with
  | stray image => cases image <;> rfl
  | lexeme kind image =>
    cases kind with
    | lineEnd =>
      rw [Lexing.sift_lineEnd, ofPiece]
      split <;> rfl
    | _ => rfl

end Segment

/-- What the lexer makes of pieces. -/
def segments (line : LineState) : List (Piece × Range) → List Segment
  | [] => []
  | (piece, range) :: rest => .ofPiece line piece range :: segments (line.next piece) rest

/-- The kinds of the tokens and comments on the line that pieces end in. -/
def wordsOfLine (pieces : List Piece) : List TokenKind :=
  pieces.foldl (fun words piece =>
    match piece with
    | .stray _ | .lexeme .blanks _ => words
    | .lexeme .lineEnd _ => []
    | .lexeme kind _ => words ++ [kind]) []

/-- Whether there is a comment on a line, and nothing but comments before the last one. -/
def leadsWithComment (words : List TokenKind) : Bool :=
  match words.reverse.dropWhile (· ≠ .comment) with
  | [] => false
  | _ :: before => before.all (· = .comment)

/-- What a text is split into, and that a lexing consists of it. -/
structure IsSegmented (locale : Locale) (text : List Char) (l : Lexing) (segments : List Segment) :
    Prop where
  /-- The segments are all that is in the text: the matches and the stray runs between them. -/
  splits : Splits locale text (segments.map Segment.piece)
  kind_token : ∀ t, .token t ∈ segments → t.kind.isSkipped = false
  kind_comment : ∀ t, .comment t ∈ segments → t.kind = .comment
  tokens_eq : l.tokens = segments.filterMap Segment.token?
  comments_eq : l.comments = segments.filterMap Segment.comment?
  errors_eq : l.errors = segments.filterMap Segment.error?
  /-- Places are told by the text before. -/
  range_eq : ∀ front segment back, segments = front ++ segment :: back →
    ∀ range ∈ segment.range?,
      range = .ofText (byteLength ((front.map Segment.piece).flatMap Piece.image))
        (Position.start.advance ((front.map Segment.piece).flatMap Piece.image)) segment.piece.image

/-! ## The segments of a lexing -/

section Segments

theorem map_piece_segments (line : LineState) (pieces : List (Piece × Range)) :
    (segments line pieces).map Segment.piece = pieces.map Prod.fst := by
  induction pieces generalizing line with
  | nil => rfl
  | cons p pieces ih => rw [segments, List.map_cons, List.map_cons, ih, Segment.piece_ofPiece]

theorem sift_segments (line : LineState) (pieces : List (Piece × Range)) :
    Lexing.sift line pieces =
      ⟨(segments line pieces).filterMap Segment.token?,
        (segments line pieces).filterMap Segment.comment?,
        (segments line pieces).filterMap Segment.error?⟩ := by
  induction pieces generalizing line with
  | nil => rfl
  | cons p pieces ih =>
    have hcons : ∀ {β : Type} (f : Segment → Option β) (segment : Segment) (rest : List Segment),
        (segment :: rest).filterMap f = (f segment).toList ++ rest.filterMap f := by
      intro β f segment rest
      rw [List.filterMap_cons]
      cases f segment <;> rfl
    rw [Lexing.sift_cons, ih, Segment.sift_ofPiece, segments, hcons, hcons, hcons]
    rfl

/-- A segment is made of its piece by what the lexer remembers of the pieces before. -/
theorem exists_ofPiece {line : LineState} {pieces : List (Piece × Range)}
    {front back : List Segment}
    {segment : Segment} (h : segments line pieces = front ++ segment :: back) :
    ∃ range, segment = .ofPiece (line.after (front.map Segment.piece)) segment.piece range := by
  induction pieces generalizing line front with
  | nil => exact absurd h (List.append_ne_nil_of_right_ne_nil _ (List.cons_ne_nil _ _)).symm
  | cons p pieces ih =>
    rw [segments] at h
    rcases List.cons_eq_append_iff.1 h with ⟨rfl, hfirst⟩ | ⟨front, rfl, hrest⟩
    · obtain ⟨rfl, -⟩ := List.cons.inj hfirst
      exact ⟨p.2, by rw [Segment.piece_ofPiece]; rfl⟩
    · obtain ⟨range, hsegment⟩ := ih hrest
      refine ⟨range, hsegment.trans ?_⟩
      rw [List.map_cons, Segment.piece_ofPiece]
      rfl

theorem range_eq_of_segments {line : LineState} {pieces : List Piece} (before : List Char)
    {front back : List Segment} {segment : Segment} (h : segments line
      (locate (byteLength before) (Position.start.advance before) pieces) =
      front ++ segment :: back)
    {range : Range} (hrange : range ∈ segment.range?) :
    range = .ofText (byteLength (before ++ (front.map Segment.piece).flatMap Piece.image))
      (Position.start.advance (before ++ (front.map Segment.piece).flatMap Piece.image))
      segment.piece.image := by
  induction pieces generalizing line before front with
  | nil => exact absurd h (List.append_ne_nil_of_right_ne_nil _ (List.cons_ne_nil _ _)).symm
  | cons piece pieces ih =>
    rw [locate, segments] at h
    rcases List.cons_eq_append_iff.1 h with ⟨rfl, hfirst⟩ | ⟨front, rfl, hrest⟩
    · obtain ⟨rfl, -⟩ := List.cons.inj hfirst
      rw [Segment.range_of_mem_ofPiece _ _ hrange, Segment.piece_ofPiece, List.map_nil,
        List.flatMap_nil, List.append_nil]
    · have hstop : (Range.ofText (byteLength before) (Position.start.advance before)
          piece.image).span.stop = byteLength (before ++ piece.image) :=
        (byteLength_append before piece.image).symm
      have hposition : (Range.ofText (byteLength before) (Position.start.advance before)
          piece.image).stop = Position.start.advance (before ++ piece.image) :=
        (Position.advance_append _ before piece.image).symm
      rw [hstop, hposition] at hrest
      have := ih (before ++ piece.image) hrest
      rwa [List.map_cons, Segment.piece_ofPiece, List.flatMap_cons, ← List.append_assoc]

/-- The segments of a text. -/
def segmentsOf (locale : Locale) (text : List Char) : List Segment :=
  segments .fresh (locate 0 .start (locale.pieces text))

theorem isSegmented_segmentsOf (locale : Locale) (text : List Char) :
    IsSegmented locale text (.ofText locale text) (segmentsOf locale text) := by
  have hkinds : ∀ segment ∈ segmentsOf locale text, ∀ t,
      (segment = .token t → t.kind.isSkipped = false) ∧
      (segment = .comment t → t.kind = .comment) := by
    intro segment hmem t
    obtain ⟨front, back, hsplit⟩ := List.append_of_mem hmem
    obtain ⟨range, hsegment⟩ := exists_ofPiece hsplit
    rw [hsegment]
    exact Segment.kind_of_ofPiece _ _
  have hsift := sift_segments .fresh (locate 0 .start (locale.pieces text))
  refine ⟨?_, fun t ht => (hkinds _ ht t).1 rfl, fun t ht => (hkinds _ ht t).2 rfl,
    congrArg Lexing.tokens hsift, congrArg Lexing.comments hsift, congrArg Lexing.errors hsift,
    fun front segment back h range hrange => ?_⟩
  · rw [segmentsOf, map_piece_segments, map_fst_locate]
    exact splits_cut locale text
  · exact range_eq_of_segments [] h hrange

end Segments

/-! ## The text of segments -/

/-- The text of some segments. -/
def textOf (segments : List Segment) : List Char :=
  (segments.map Segment.piece).flatMap Piece.image

theorem textOf_append (segments more : List Segment) :
    textOf (segments ++ more) = textOf segments ++ textOf more := by
  rw [textOf, List.map_append, List.flatMap_append]
  rfl

theorem mem_of_token? {t : Token} {segment : Segment} (h : segment.token? = some t) :
    segment = .token t := by
  cases segment with
  | token t' => exact congrArg _ (Option.some.inj h)
  | _ => cases h

section Segments

variable {front back : List Char} {segments : List Segment}

/-- Every character of a text is in a segment. -/
theorem exists_segment {c : Char} (h : textOf segments = front ++ c :: back) :
    ∃ before segment after left right, segments = before ++ segment :: after ∧
      segment.piece.image = left ++ c :: right ∧ front = textOf before ++ left ∧
      back = right ++ textOf after := by
  induction segments generalizing front with
  | nil => exact absurd h.symm (List.append_ne_nil_of_right_ne_nil _ (List.cons_ne_nil _ _))
  | cons segment segments ih =>
    rcases append_eq_append_cons
      (show segment.piece.image ++ textOf segments = front ++ c :: back from h)
      with ⟨more, rfl, hmore⟩ | ⟨more, himage, rfl⟩
    · obtain ⟨before, segment', after, left, right, rfl, himage, rfl, rfl⟩ := ih hmore
      refine ⟨segment :: before, segment', after, left, right, rfl, himage, ?_, rfl⟩
      exact (List.append_assoc ..).symm
    · exact ⟨[], segment, segments, front, more, rfl, himage, rfl, rfl⟩

/-- Two segments of a text that overlap are one. -/
theorem segment_unique {before after before' after' : List Segment} {segment segment' : Segment}
    (h : before ++ segment :: after = before' ++ segment' :: after')
    (hlt : byteLength (textOf before) <
      byteLength (textOf before') + byteLength segment'.piece.image)
    (hlt' : byteLength (textOf before') <
      byteLength (textOf before) + byteLength segment.piece.image) : segment = segment' := by
  have hle : ∀ (before more : List Segment) (segment : Segment),
      byteLength (textOf before) + byteLength segment.piece.image ≤
        byteLength (textOf (before ++ segment :: more)) := by
    intro before more segment
    have hcons : textOf (segment :: more) = segment.piece.image ++ textOf more := rfl
    rw [textOf_append, byteLength_append, hcons, byteLength_append]
    omega
  rcases List.append_eq_append_iff.1 h
    with ⟨_ | ⟨s, more⟩, rfl, hmore⟩ | ⟨_ | ⟨s, more⟩, rfl, hmore⟩
  · exact (List.cons.inj hmore).1
  · obtain ⟨rfl, -⟩ := List.cons.inj hmore
    exact absurd hlt' (Nat.not_lt.2 (hle before more segment))
  · exact (List.cons.inj hmore).1.symm
  · obtain ⟨rfl, -⟩ := List.cons.inj hmore
    exact absurd hlt (Nat.not_lt.2 (hle before' more segment'))

namespace IsSegmented

variable {locale : Locale} {text : List Char} {l : Lexing}

/-- What is known of the place of a segment. -/
theorem span_eq (h : IsSegmented locale text l segments) {before after : List Segment}
    {segment : Segment} (hsplit : segments = before ++ segment :: after) {range : Range}
    (hrange : range ∈ segment.range?) : range.span =
      ⟨byteLength (textOf before), byteLength (textOf before) + byteLength segment.piece.image⟩ :=
  congrArg Range.span (h.range_eq before segment after hsplit range hrange)

/-- The lexeme or the stray run that a segment is. -/
theorem splits_at (h : IsSegmented locale text l segments) {before after : List Segment}
    {segment : Segment} (hsplit : segments = before ++ segment :: after) :
    Splits locale (segment.piece.image ++ textOf after)
      (segment.piece :: after.map Segment.piece) := by
  have hsplits := h.splits
  rw [hsplit, List.map_append, List.map_cons] at hsplits
  exact hsplits.drop

/-- A token or comment begins where the text before it ends. -/
theorem offset_eq (h : IsSegmented locale text l segments) {before after : List Segment}
    {segment : Segment} (hsplit : segments = before ++ segment :: after) {t : Token}
    (ht : segment.range? = some t.range) : t.offset = byteLength (textOf before) :=
  congrArg Span.start (h.span_eq hsplit ht)

/-- Segments begin before the end of the text. -/
theorem start_lt (h : IsSegmented locale text l segments) {segment : Segment}
    (hmem : segment ∈ segments)
    {range : Range} (hrange : range ∈ segment.range?) : range.span.start < byteLength text := by
  obtain ⟨before, after, hsplit⟩ := List.append_of_mem hmem
  have hne : segment.piece.image ≠ [] :=
    h.splits.image_ne_nil _ (List.mem_map_of_mem hmem)
  have hpos := byteLength_pos hne
  have htext : text = textOf before ++ (segment.piece.image ++ textOf after) := by
    rw [← h.splits.flatMap_image]
    exact (congrArg textOf hsplit).trans (textOf_append before (segment :: after))
  rw [h.span_eq hsplit hrange, htext, byteLength_append, byteLength_append]
  dsimp only
  omega

end IsSegmented

end Segments

/-! ## Lines with a comment -/

theorem wordsOfLine_concat (pieces : List Piece) (piece : Piece) :
    wordsOfLine (pieces ++ [piece]) =
      match piece with
      | .stray _ | .lexeme .blanks _ => wordsOfLine pieces
      | .lexeme .lineEnd _ => []
      | .lexeme kind _ => wordsOfLine pieces ++ [kind] := by
  rw [wordsOfLine, List.foldl_append]
  rfl

theorem mem_wordsOfLine_concat {pieces : List Piece} {kind word : TokenKind} {image : List Char}
    (h : word ∈ wordsOfLine (pieces ++ [.lexeme kind image])) :
    word ∈ wordsOfLine pieces ∨ word = kind := by
  rw [wordsOfLine_concat] at h
  cases kind with
  | blanks => exact .inl h
  | lineEnd => exact absurd h List.not_mem_nil
  | _ => exact (List.mem_append.1 h).imp_right List.mem_singleton.1

theorem leadsWithComment_concat_comment (words : List TokenKind) :
    leadsWithComment (words ++ [.comment]) = words.all (· = .comment) := by
  simp [leadsWithComment]

theorem leadsWithComment_concat {kind : TokenKind} (hkind : kind ≠ .comment)
    (words : List TokenKind) : leadsWithComment (words ++ [kind]) = leadsWithComment words := by
  simp [leadsWithComment, hkind]

/-- What the lexer remembers of a line is what the words of the line are. -/
theorem LineState.after_eq (pieces : List Piece) : LineState.fresh.after pieces =
    ⟨(wordsOfLine pieces).any (· ≠ .comment), leadsWithComment (wordsOfLine pieces)⟩ := by
  -- by induction from the end, where the lexer is when it has read them
  induction pieces using List.reverseRecOn with
  | nil => rfl
  | append_singleton pieces piece ih =>
    have hafter : LineState.fresh.after (pieces ++ [piece]) =
        (LineState.fresh.after pieces).next piece := List.foldl_concat ..
    rw [hafter, ih, wordsOfLine_concat]
    have htoken : ∀ kind, kind ≠ .comment →
        (⟨true, leadsWithComment (wordsOfLine pieces)⟩ : LineState) =
          ⟨(wordsOfLine pieces ++ [kind]).any (· ≠ .comment),
            leadsWithComment (wordsOfLine pieces ++ [kind])⟩ := by
      intro kind hkind
      rw [leadsWithComment_concat hkind]
      simp [hkind]
    cases piece with
    | stray image => rfl
    | lexeme kind image =>
      cases kind with
      | blanks => rfl
      | lineEnd => rfl
      | comment =>
        dsimp only
        rw [leadsWithComment_concat_comment, LineState.next]
        simp [List.not_any_eq_all_not]
      | _ => exact htoken _ nofun

theorem HasPairedReturns.of_append {text more : List Char} (h : HasPairedReturns (text ++ more)) :
    HasPairedReturns more := by
  rintro front back rfl
  exact h (text ++ front) back (List.append_assoc ..).symm

/-- Where no carriage return stands alone, a comment is the last thing on its line. -/
theorem comment_last {locale : Locale} {text : List Char} (hreturns : HasPairedReturns text)
    {pieces more : List Piece} (h : Splits locale text (pieces ++ more)) :
    .comment ∉ wordsOfLine pieces ∨
      ∃ front image, pieces = front ++ [.lexeme .comment image] ∧ .comment ∉ wordsOfLine front := by
  induction pieces using List.reverseRecOn generalizing more with
  | nil => exact .inl List.not_mem_nil
  | append_singleton pieces piece ih =>
    rw [List.append_assoc] at h
    rcases ih h with hnone | ⟨front, image, rfl, -⟩
    · cases piece with
      | stray image => exact .inl (wordsOfLine_concat _ _ ▸ hnone)
      | lexeme kind image =>
        by_cases hkind : kind = .comment
        · exact .inr ⟨pieces, image, hkind ▸ rfl, hnone⟩
        · exact .inl fun hmem => (mem_wordsOfLine_concat hmem).elim hnone (hkind ∘ Eq.symm)
    · rw [List.append_assoc] at h
      have hrest := h.drop
      rw [← h.flatMap_image, List.flatMap_append] at hreturns
      -- what comes after a comment is a line end, which begins a line of its own
      have hkind := hrest.lineEnd_of_comment hreturns.of_append
      left
      rw [wordsOfLine_concat]
      cases piece with
      | stray image => cases hkind
      | lexeme kind image =>
        obtain rfl : kind = .lineEnd := Option.some.inj hkind
        exact List.not_mem_nil

/-- Where no carriage return stands alone, the line of a comment that leads it has nothing else. -/
theorem leadsWithComment_iff {locale : Locale} {text : List Char} (hreturns : HasPairedReturns text)
    {pieces more : List Piece} (h : Splits locale text (pieces ++ more)) :
    leadsWithComment (wordsOfLine pieces) = true ↔ wordsOfLine pieces = [.comment] := by
  -- either no comment is on the line, or it is the last thing there
  rcases comment_last hreturns h with hnone | ⟨front, image, rfl, hnone⟩
  · have hleads : leadsWithComment (wordsOfLine pieces) = false := by
      have hdrop : (wordsOfLine pieces).reverse.dropWhile (· ≠ .comment) = [] := by
        rw [List.dropWhile_eq_nil_iff]
        intro word hword
        exact decide_eq_true fun h => hnone (h ▸ List.mem_reverse.1 hword)
      rw [leadsWithComment, hdrop]
    rw [hleads]
    refine iff_of_false Bool.noConfusion fun h => hnone ?_
    rw [h]
    exact List.mem_singleton_self _
  · have hwords : wordsOfLine (front ++ [.lexeme .comment image]) =
        wordsOfLine front ++ [.comment] :=
      wordsOfLine_concat _ _
    rw [hwords, leadsWithComment_concat_comment]
    cases hfront : wordsOfLine front with
    | nil => exact iff_of_true rfl rfl
    | cons word words =>
      have hword : word ≠ .comment := fun h => hnone (by rw [hfront, h]; exact List.mem_cons_self)
      simp [hword]

/-- Which line ends among segments are dropped, by the words of their lines. -/
def DropsLineEnds (segments : List Segment) (dropped : List TokenKind → Prop) : Prop :=
  ∀ front segment back, segments = front ++ segment :: back →
    segment.piece.kind? = some .lineEnd →
      ((∃ image, segment = .commentEnd image) ↔ dropped (wordsOfLine (front.map Segment.piece)))

theorem dropsLineEnds_segmentsOf (locale : Locale) (text : List Char) :
    DropsLineEnds (segmentsOf locale text) fun words => leadsWithComment words = true := by
  intro front segment back hsplit hkind
  obtain ⟨range, hsegment⟩ := exists_ofPiece hsplit
  rw [LineState.after_eq] at hsegment
  cases hpiece : segment.piece with
  | stray image =>
    rw [hpiece] at hkind
    cases hkind
  | lexeme kind image =>
    rw [hpiece] at hkind hsegment
    obtain rfl : kind = .lineEnd := Option.some.inj hkind
    rw [Segment.ofPiece] at hsegment
    split at hsegment
    · next hleads => exact iff_of_true ⟨image, hsegment⟩ hleads
    · next hleads =>
      refine iff_of_false ?_ hleads
      rintro ⟨image', h⟩
      rw [h] at hsegment
      cases hsegment

/-! ## Exact places -/

/-- What a token of a text says of itself and of its place is so. -/
def Token.IsExact (text : List Char) (t : Token) : Prop :=
  t.chars = t.range.span.slice text ∧
    t.range.start = Position.start.advance (Span.slice ⟨0, t.range.span.start⟩ text) ∧
    t.range.stop = Position.start.advance (Span.slice ⟨0, t.range.span.stop⟩ text)

theorem Token.isExact_of_range_eq {front back : List Char} {t : Token}
    (h : t.range = .ofText (byteLength front) (Position.start.advance front) t.chars) :
    t.IsExact (front ++ t.chars ++ back) := by
  have hfront : ∀ front back : List Char,
      Span.slice ⟨0, byteLength front⟩ (front ++ back) = front := by
    intro front back
    have := Span.slice_append [] front back
    rwa [byteLength, Nat.zero_add] at this
  rw [IsExact, h, Range.ofText]
  refine ⟨(Span.slice_append front t.chars back).symm, ?_, ?_⟩
  · rw [List.append_assoc, hfront]
  · rw [← byteLength_append, hfront, Position.advance_append]

namespace IsSegmented

variable {locale : Locale} {text : List Char} {l : Lexing} {segments : List Segment}

theorem isExact (h : IsSegmented locale text l segments) :
    ∀ t ∈ l.tokens ++ l.comments, t.IsExact text := by
  have hsegment : ∀ t : Token, (∃ segment ∈ segments, segment.range? = some t.range ∧
      segment.piece.image = t.chars) → t.IsExact text := by
    rintro t ⟨segment, hmem, hrange, himage⟩
    obtain ⟨front, back, hsplit⟩ := List.append_of_mem hmem
    have hrange := h.range_eq front segment back hsplit t.range hrange
    have htext := h.splits.flatMap_image
    rw [hsplit, List.map_append, List.map_cons, List.flatMap_append, List.flatMap_cons, himage,
      ← List.append_assoc] at htext
    rw [himage] at hrange
    exact htext ▸ Token.isExact_of_range_eq hrange
  intro t ht
  refine hsegment t ?_
  rw [h.tokens_eq, h.comments_eq] at ht
  rcases List.mem_append.1 ht with ht | ht
  · obtain ⟨segment, hmem, hsome⟩ := List.mem_filterMap.1 ht
    obtain rfl : segment = .token t := by cases segment <;> simp_all [Segment.token?]
    exact ⟨_, hmem, rfl, rfl⟩
  · obtain ⟨segment, hmem, hsome⟩ := List.mem_filterMap.1 ht
    obtain rfl : segment = .comment t := by cases segment <;> simp_all [Segment.comment?]
    exact ⟨_, hmem, rfl, rfl⟩

end IsSegmented

theorem pairwise_errors (locale : Locale) (text : List Char) :
    (Lexing.ofText locale text).errors.Pairwise fun e e' =>
      e.range.span.start < e'.range.span.start := by
  have hsub : ∀ (line : LineState) (pieces : List (Piece × Range)),
      ((Lexing.sift line pieces).errors.map LexError.range).Sublist (pieces.map Prod.snd) := by
    intro line pieces
    induction pieces generalizing line with
    | nil => exact .slnil
    | cons p pieces ih =>
      rw [Lexing.sift_cons, Segment.sift_ofPiece]
      change (((Segment.ofPiece line p.1 p.2).error?.toList ++ _).map LexError.range).Sublist _
      cases herror : (Segment.ofPiece line p.1 p.2).error? with
      | none => exact (ih _).cons _
      | some e =>
        have hrange := Segment.range_of_mem_ofPiece line p.2 (Segment.range_of_error? herror)
        rw [Option.toList_some, List.singleton_append, List.map_cons, List.map_cons, hrange]
        exact (ih _).cons_cons _
  have hpairwise :=
    (pairwise_locate (image_ne_nil_of_mem_cut locale.regularTerminals text) 0 .start).2
  have herrors : ((Lexing.ofText locale text).errors.map LexError.range).Pairwise fun r s =>
      r.span.start < s.span.start := List.Pairwise.sublist (hsub .fresh _) hpairwise
  exact List.Pairwise.of_map LexError.range (fun _ _ h => h) herrors

/-- Every text is split into segments, and its lexing consists of them: tokens, comments, blanks,
    ends of lines that were commented out, and errors. Tokens and comments are the text at their
    places, all are in order, and every line feed ends one line end. A line end is dropped with the
    comment that leads its line, which is all there is on the line if carriage returns stand only
    before line feeds. -/
theorem Lexing.lossless (locale : Locale) (text : List Char) : ∃ segments,
    IsSegmented locale text (ofText locale text) segments ∧
      (∀ t ∈ (ofText locale text).tokens ++ (ofText locale text).comments, t.IsExact text) ∧
      InOrder (ofText locale text).tokens ∧ InOrder (ofText locale text).comments ∧
      ((ofText locale text).errors.Pairwise fun e e' => e.range.span.start < e'.range.span.start) ∧
      (∀ front back, text = front ++ '\n' :: back →
        ∃! n, segments[n]?.bind (·.piece.kind?) = some .lineEnd ∧
          ((segments.take (n + 1)).map Segment.piece).flatMap Piece.image = front ++ ['\n']) ∧
      (DropsLineEnds segments fun words => leadsWithComment words = true) ∧
      (HasPairedReturns text → DropsLineEnds segments fun words => words = [.comment]) := by
  have hsegmented := isSegmented_segmentsOf locale text
  obtain ⟨all, horder, htokens, hcomments⟩ := exists_inOrder locale text
  refine ⟨segmentsOf locale text, hsegmented, hsegmented.isExact, ?_, ?_,
    pairwise_errors locale text, fun front back htext => ?_, dropsLineEnds_segmentsOf locale text,
    fun hreturns front segment back hsplit hkind => ?_⟩
  · exact htokens ▸ horder.sublist List.filter_sublist
  · exact hcomments ▸ horder.sublist List.filter_sublist
  · have hunique := hsegmented.splits.existsUnique_lineEnd htext
    simp only [List.getElem?_map, Option.bind_map, ← List.map_take] at hunique
    exact hunique
  · rw [dropsLineEnds_segmentsOf locale text front segment back hsplit hkind]
    have hsplits := hsegmented.splits
    rw [hsplit, List.map_append] at hsplits
    exact leadsWithComment_iff hreturns hsplits

/-- After a lone carriage return a token can be on the line of a comment, and lose its line end. -/
theorem Lexing.not_dropsLineEnds_loneReturn :
    ¬∃ segments, IsSegmented .english "// c\rButton\n".toList
        (ofText .english "// c\rButton\n".toList) segments ∧
      DropsLineEnds segments fun words => words = [.comment] := by
  rintro ⟨segments, hsegmented, hdrops⟩
  have hcut : cut Locale.english.regularTerminals "// c\rButton\n".toList =
      [.lexeme .comment "// c".toList, .stray ['\r'], .lexeme (.keyword .button) "Button".toList] ++
        [.lexeme .lineEnd ['\n']] := by
    decide +kernel
  have hkinds : (ofText .english "// c\rButton\n".toList).tokens.map Token.kind =
      [.keyword .button] := by
    decide +kernel
  have hpieces := hcut.symm.trans (splits_iff.1 hsegmented.splits)
  obtain ⟨front, last, rfl⟩ : ∃ front last, segments = front ++ [last] := by
    rcases List.eq_nil_or_concat segments with rfl | ⟨front, last, h⟩
    · cases hpieces
    · exact ⟨front, last, h.trans List.concat_eq_append⟩
  rw [List.map_append] at hpieces
  obtain ⟨hfront, hlast⟩ := List.append_inj' hpieces rfl
  have hlast : last.piece = .lexeme .lineEnd ['\n'] := (List.cons.inj hlast).1.symm
  have hdropped := hdrops front last [] rfl (hlast ▸ rfl)
  rw [← hfront] at hdropped
  -- the line end is neither dropped nor among the tokens
  have hwords : wordsOfLine [.lexeme .comment "// c".toList, .stray ['\r'],
      .lexeme (.keyword .button) "Button".toList] ≠ [.comment] := by decide
  cases last with
  | commentEnd image => exact hwords (hdropped.1 ⟨image, rfl⟩)
  | comment t =>
    have hkind := hsegmented.kind_comment t (List.mem_append_right _ List.mem_cons_self)
    exact absurd (hkind.symm.trans (Piece.lexeme.inj hlast).1) TokenKind.noConfusion
  | blanks image => cases hlast
  | stray image range => cases hlast
  | token t =>
    have hmem : t ∈ (ofText .english "// c\rButton\n".toList).tokens := by
      rw [hsegmented.tokens_eq, List.filterMap_append]
      exact List.mem_append_right _ List.mem_cons_self
    have := List.mem_map_of_mem (f := Token.kind) hmem
    rw [hkinds, List.mem_singleton] at this
    exact nomatch this.symm.trans (Piece.lexeme.inj hlast).1

end Wireframe
