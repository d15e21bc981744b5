import Mathlib.Data.List.Chain
import Wireframe.Proofs.Token.Shift

/-!
# Comments end their lines

After a comment there is a line end, or nothing at all. So no comment comes between two words that
are next to each other, and the words after a comment are on later lines (`Lexing.isLined`). And
where two tokens are next to each other, the second one is on the line of the first, if that is no
line end (`Lexing.sharesLine`).
-/

namespace Wireframe

variable {locale : Locale} {text : List Char} {pieces : List Piece}

theorem Lexed.image_ne_nil (h : Lexed locale text pieces) : ∀ piece ∈ pieces, piece.image ≠ [] := by
  induction h with
  | nil => exact List.forall_mem_nil _
  | cons hne _ _ ih => exact List.forall_mem_cons.2 ⟨hne, ih⟩

namespace Lexing

/-- Where the comments of a lexing are among its words. -/
structure IsLined (l : Lexing) : Prop where
  /-- No comment comes between two words that are next to each other. -/
  apart : ∀ front back w u, l.tokens = front ++ w :: u :: back → w.kind ≠ .lineEnd →
    u.kind ≠ .lineEnd → ∀ c ∈ l.comments, c.offset < w.offset ∨ u.offset < c.offset
  /-- The words after a comment are on later lines. -/
  below : ∀ c ∈ l.comments, ∀ t ∈ l.tokens,
    t.kind ≠ .lineEnd → c.offset < t.offset → c.line < t.line

/-- A line end in front changes nothing. -/
theorem IsLined.cons_lineEnd {l : Lexing} (h : l.IsLined) {e : Token} (he : e.kind = .lineEnd) :
    (l.consToken e).IsLined where
  apart front back w u htokens hw hu := by
    cases front with
    | nil => exact absurd ((List.cons.inj htokens).1 ▸ he) hw
    | cons t front => exact h.apart front back w u (List.cons.inj htokens).2 hw hu
  below c hc t ht hkind := by
    rcases List.mem_cons.1 ht with rfl | ht
    · exact absurd he hkind
    · exact h.below c hc t ht hkind

/-- A word in front, before all comments, if no comment comes before the next word. -/
theorem IsLined.cons_word {l : Lexing} (h : l.IsLined) {t : Token}
    (hcomments : ∀ c ∈ l.comments, t.offset < c.offset)
    (hnext : ∀ u ∈ l.tokens.head?, u.kind ≠ .lineEnd → ∀ c ∈ l.comments, u.offset < c.offset) :
    (l.consToken t).IsLined where
  apart front back w u htokens hw hu := by
    cases front with
    | nil =>
      have hhead : l.tokens.head? = some u := by
        rw [(List.cons.inj htokens).2]
        rfl
      exact fun c hc => .inr (hnext u hhead hu c hc)
    | cons t front => exact h.apart front back w u (List.cons.inj htokens).2 hw hu
  below c hc u hu hkind hlt := by
    rcases List.mem_cons.1 hu with rfl | hu
    · exact absurd hlt (Nat.lt_asymm (hcomments c hc))
    · exact h.below c hc u hu hkind hlt

/-- A comment in front, after which the line ends. -/
theorem IsLined.cons_comment {l : Lexing} (h : l.IsLined) {c : Token}
    (htokens : ∀ t ∈ l.tokens, c.offset < t.offset)
    (hlines : ∀ t ∈ l.tokens, t.kind ≠ .lineEnd → c.line < t.line) : (l.consComment c).IsLined where
  apart front back w u hsplit hw hu := by
    have hmem : w ∈ l.tokens := by
      rw [show l.tokens = _ from hsplit]
      exact List.mem_append_right _ List.mem_cons_self
    exact List.forall_mem_cons.2 ⟨.inl (htokens w hmem), h.apart front back w u hsplit hw hu⟩
  below := List.forall_mem_cons.2 ⟨fun t ht hkind _ => hlines t ht hkind, h.below⟩

section Places

variable {line : LineState} {offset : Nat} {position : Position} {t : Token}

theorem locate_lexeme (kind : TokenKind) (image : List Char) (offset : Nat) (position : Position)
    (pieces : List Piece) : locate offset position (.lexeme kind image :: pieces) =
      (.lexeme kind image, .ofText offset position image) ::
        locate (offset + byteLength image) (position.advance image) pieces :=
  rfl

/-- What is lexed comes neither before the place where it is begun, nor on an earlier line. -/
theorem bounds_of_mem (h : Lexed locale text pieces)
    (ht : t ∈ (sift line (locate offset position pieces)).tokens ++
      (sift line (locate offset position pieces)).comments) :
    offset ≤ t.offset ∧ position.line ≤ t.line := by
  obtain ⟨all, hsub, htokens, hcomments⟩ := isSifted_sift line (locate offset position pieces)
  rw [htokens, hcomments] at ht
  have hall : t ∈ all :=
    (List.mem_append.1 ht).elim (List.mem_filter.1 · |>.1) (List.mem_filter.1 · |>.1)
  have hrange := hsub.subset (List.mem_map_of_mem hall)
  exact ⟨(pairwise_locate h.image_ne_nil offset position).1 _ hrange,
    (pairwise_line_locate offset position pieces).1 _ hrange⟩

/-- What is lexed after a lexeme comes after its beginning. -/
theorem lt_offset_of_mem {image : List Char} (hne : image ≠ []) (h : Lexed locale text pieces)
    (ht : t ∈ (sift line (locate (offset + byteLength image) position pieces)).tokens ++
      (sift line (locate (offset + byteLength image) position pieces)).comments) :
      offset < t.offset := by
  have hpos := byteLength_pos hne
  have := (bounds_of_mem h ht).1
  omega

/-- Where a line break comes first, all words are on later lines, and none comes before the line
    end. -/
theorem line_lt_of_isBreak (h : Lexed locale text pieces)
    (hbreak : ∀ c ∈ text.head?, Shape.isBreak c) (line : LineState) (offset : Nat)
    (position : Position) :
    (∀ t ∈ (sift line (locate offset position pieces)).tokens, t.kind ≠ .lineEnd →
      position.line < t.line) ∧
    (line.isComment = false →
      ∀ t ∈ (sift line (locate offset position pieces)).tokens.head?, t.kind = .lineEnd) := by
  cases h with
  | nil => exact ⟨List.forall_mem_nil _, nofun⟩
  | @cons kind image rest pieces hne hlexeme hrest =>
    obtain ⟨c, more, himage⟩ := List.exists_cons_of_ne_nil hne
    -- only a line end begins with a line break
    have hkind : kind = .lineEnd := by
      rw [himage, List.cons_append] at hbreak hlexeme
      exact kind_of_isBreak (hbreak c rfl) hlexeme
    subst hkind
    have hline : (position.advance image).line = position.line + 1 := by
      obtain ⟨front, hfront, hfeed⟩ := take_of_lineEnd hlexeme
      rw [List.take_left] at hfront
      rw [hfront, Position.advance_append]
      exact congrArg (· + 1) (Position.line_advance_of_notMem hfeed)
    have hbelow : ∀ t ∈ (sift .fresh (locate (offset + byteLength image) (position.advance image)
        pieces)).tokens, position.line < t.line := fun t ht => by
      have := (bounds_of_mem hrest (List.mem_append_left _ ht)).2
      omega
    rw [locate_lexeme, sift]
    split
    · next hcomment =>
      exact ⟨fun t ht _ => hbelow t ht, fun hnone => absurd hcomment (Bool.eq_false_iff.1 hnone)⟩
    · refine ⟨fun t ht hkind => ?_, fun _ t ht => Option.some.inj ht ▸ rfl⟩
      rcases List.mem_cons.1 ht with rfl | ht
      · exact absurd rfl hkind
      · exact hbelow t ht

end Places

section Steps

variable {kind : TokenKind} {image rest : List Char} {offset : Nat} {position : Position}

/-- A token of the grammar in front. -/
theorem sift_word (hend : kind ≠ .lineEnd) (hblanks : kind ≠ .blanks) (hcomment : kind ≠ .comment)
    (line : LineState) (pieces : List Piece) :
    sift line (locate offset position (.lexeme kind image :: pieces)) =
      (sift { line with hasTokens := true }
        (locate (offset + byteLength image) (position.advance image) pieces)).consToken
          ⟨kind, String.ofList image, .ofText offset position image⟩ := by
  rw [locate_lexeme]
  cases kind <;> first | rfl | contradiction

/-- Where a line break comes first, the lexeme is a line end. -/
theorem not_isBreak_of_lexeme (hne : image ≠ [])
    (h : lexemeAt? locale.regularTerminals (image ++ rest) = some (kind, image.length))
    (hkind : kind ≠ .lineEnd) : ¬ ∀ c ∈ (image ++ rest).head?, Shape.isBreak c := by
  obtain ⟨c, more, himage⟩ := List.exists_cons_of_ne_nil hne
  rw [himage, List.cons_append] at h ⊢
  exact fun hall => hkind (kind_of_isBreak (hall c rfl) h)

/-- With no other lexeme than a line end does a line end. -/
theorem line_advance_of_lexeme
    (h : lexemeAt? locale.regularTerminals (image ++ rest) = some (kind, image.length))
    (hkind : kind ≠ .lineEnd) (position : Position) :
    (position.advance image).line = position.line := by
  have hfeed := lineFeed_notMem_take hkind h
  rw [List.take_left] at hfeed
  exact Position.line_advance_of_notMem hfeed

end Steps

/-- The comments of a text that is cut into lexemes end their lines: wherever the lexer is in the
    text, at the beginning of a line, after a comment, or after a word, before which no comment
    comes. -/
theorem isLined_of_lexed (h : Lexed locale text pieces) (offset : Nat) (position : Position) :
    (sift .fresh (locate offset position pieces)).IsLined ∧
      ((∀ c ∈ text.head?, Shape.isBreak c) →
        (sift ⟨false, true⟩ (locate offset position pieces)).IsLined) ∧
      (sift ⟨true, false⟩ (locate offset position pieces)).IsLined ∧
        ∀ u ∈ (sift ⟨true, false⟩ (locate offset position pieces)).tokens.head?, u.kind ≠ .lineEnd →
          ∀ c ∈ (sift ⟨true, false⟩ (locate offset position pieces)).comments,
            u.offset < c.offset := by
  induction h using Lexed.kind_induction generalizing offset position with
  | nil =>
    have hempty : empty.IsLined :=
      ⟨fun _ _ _ _ h => absurd h.symm (List.append_ne_nil_of_right_ne_nil _ (List.cons_ne_nil _ _)),
        List.forall_mem_nil _⟩
    exact ⟨hempty, fun _ => hempty, hempty, nofun⟩
  | @lineEnd image _ _ _ _ _ ih =>
    have hfresh := (ih (offset + byteLength image) (position.advance image)).1
    exact ⟨hfresh.cons_lineEnd rfl, fun _ => hfresh, hfresh.cons_lineEnd rfl,
      fun u hu hkind => absurd (Option.some.inj hu ▸ rfl) hkind⟩
  | @blanks image _ _ hne hlexeme _ ih =>
    obtain ⟨hfresh, -, hwords, hnext⟩ := ih (offset + byteLength image) (position.advance image)
    have hbreak := not_isBreak_of_lexeme hne hlexeme TokenKind.noConfusion
    exact ⟨hfresh, fun h => absurd h hbreak, hwords, hnext⟩
  | @comment image _ _ hne hlexeme h ih =>
    obtain ⟨-, hcomment, hwords, -⟩ := ih (offset + byteLength image) (position.advance image)
    have hbreak := not_isBreak_of_lexeme hne hlexeme TokenKind.noConfusion
    obtain ⟨tail, -, -, hlast⟩ := exists_of_comment hlexeme
    have hlines (line : LineState) := line_lt_of_isBreak h hlast line
      (offset + byteLength image) (position.advance image)
    rw [line_advance_of_lexeme hlexeme TokenKind.noConfusion] at hlines
    refine ⟨?_, fun h => absurd h hbreak, ?_, fun u hu hkind => ?_⟩
    · exact (hcomment hlast).cons_comment
        (fun t ht => lt_offset_of_mem hne h (List.mem_append_left _ ht)) (hlines _).1
    · exact hwords.cons_comment
        (fun t ht => lt_offset_of_mem hne h (List.mem_append_left _ ht)) (hlines _).1
    -- only the line end is left of the line, and that is no word
    · exact absurd ((hlines _).2 rfl u hu) hkind
  | @word kind image _ _ hne hlexeme h hend hblanks hcomments ih =>
    obtain ⟨-, -, hwords, hnext⟩ := ih (offset + byteLength image) (position.advance image)
    have hbreak := not_isBreak_of_lexeme hne hlexeme hend
    have hword := hwords.cons_word (t := ⟨kind, String.ofList image, .ofText offset position image⟩)
      (fun c hc => lt_offset_of_mem hne h (List.mem_append_right _ hc)) hnext
    rw [sift_word hend hblanks hcomments .fresh, sift_word hend hblanks hcomments ⟨true, false⟩]
    refine ⟨hword, fun h => absurd h hbreak, hword, fun u hu _ c hc => ?_⟩
    exact Option.some.inj hu ▸ lt_offset_of_mem hne h (List.mem_append_right _ hc)

/-- In a text with which nothing is wrong, comments end their lines. -/
theorem isLined (h : (ofText locale text).errors = []) : (ofText locale text).IsLined :=
  (isLined_of_lexed (lexed_of_errors_eq_nil h) 0 .start).1

/-! ## Neighbours on a line -/

/-- A token that is no line end is on the line of the next one. -/
def SharesLine (t u : Token) : Prop :=
  t.kind ≠ .lineEnd → u.line = t.line

/-- Neighbours among the tokens of a text that is cut into lexemes share their line, wherever the
    lexer is in the text; after a word, the first of them is on the line that the lexer is on. -/
theorem sharesLine_of_lexed (h : Lexed locale text pieces) (offset : Nat) (position : Position) :
    (sift .fresh (locate offset position pieces)).tokens.IsChain SharesLine ∧
      ((∀ c ∈ text.head?, Shape.isBreak c) →
        (sift ⟨false, true⟩ (locate offset position pieces)).tokens.IsChain SharesLine) ∧
      (sift ⟨true, false⟩ (locate offset position pieces)).tokens.IsChain SharesLine ∧
        ∀ u ∈ (sift ⟨true, false⟩ (locate offset position pieces)).tokens.head?,
          u.line = position.line := by
  -- the three states need one another: a line end goes back to the first, a comment that leads its
  -- line to the second, a word to the third
  induction h using Lexed.kind_induction generalizing offset position with
  | nil => exact ⟨.nil, fun _ => .nil, .nil, nofun⟩
  | @lineEnd image _ pieces _ _ _ ih =>
    have hfresh := (ih (offset + byteLength image) (position.advance image)).1
    have hlineEnd (t : Token) (ht : t.kind = .lineEnd) : (t :: (sift .fresh (locate
        (offset + byteLength image) (position.advance image) pieces)).tokens).IsChain SharesLine :=
      List.isChain_cons.2 ⟨fun _ _ hkind => absurd ht hkind, hfresh⟩
    exact ⟨hlineEnd _ rfl, fun _ => hfresh, hlineEnd _ rfl, fun u hu => Option.some.inj hu ▸ rfl⟩
  | @blanks image _ _ hne hlexeme _ ih =>
    obtain ⟨hfresh, -, hwords, hnext⟩ := ih (offset + byteLength image) (position.advance image)
    rw [line_advance_of_lexeme hlexeme TokenKind.noConfusion] at hnext
    have hbreak := not_isBreak_of_lexeme hne hlexeme TokenKind.noConfusion
    exact ⟨hfresh, fun h => absurd h hbreak, hwords, hnext⟩
  | @comment image _ _ hne hlexeme _ ih =>
    obtain ⟨-, hcomment, hwords, hnext⟩ := ih (offset + byteLength image) (position.advance image)
    rw [line_advance_of_lexeme hlexeme TokenKind.noConfusion] at hnext
    have hbreak := not_isBreak_of_lexeme hne hlexeme TokenKind.noConfusion
    obtain ⟨-, -, -, hlast⟩ := exists_of_comment hlexeme
    exact ⟨hcomment hlast, fun h => absurd h hbreak, hwords, hnext⟩
  | @word kind image _ pieces hne hlexeme _ hend hblanks hcomments ih =>
    obtain ⟨-, -, hwords, hnext⟩ := ih (offset + byteLength image) (position.advance image)
    rw [line_advance_of_lexeme hlexeme hend] at hnext
    have hbreak := not_isBreak_of_lexeme hne hlexeme hend
    rw [sift_word hend hblanks hcomments .fresh, sift_word hend hblanks hcomments ⟨true, false⟩]
    have hword : ((⟨kind, String.ofList image, .ofText offset position image⟩ : Token) ::
        (sift ⟨true, false⟩ (locate (offset + byteLength image) (position.advance image)
          pieces)).tokens).IsChain SharesLine :=
      List.isChain_cons.2 ⟨fun u hu _ => hnext u hu, hwords⟩
    exact ⟨hword, fun h => absurd h hbreak, hword, fun u hu => Option.some.inj hu ▸ rfl⟩

/-- In a text with which nothing is wrong, a line goes on up to its line end. -/
theorem sharesLine (h : (ofText locale text).errors = []) :
    (ofText locale text).tokens.IsChain SharesLine :=
  (sharesLine_of_lexed (lexed_of_errors_eq_nil h) 0 .start).1

end Lexing

end Wireframe
