import Wireframe.Proofs.Token.Shown

/-!
# Slashes

Free text may have slashes in it, but never two in a row: these begin a comment, wherever they
stand, unless they are in a quotation, in a placeholder or in a comment already.

* `slashes_of_lexemeAt?`: a lexeme with a slash before another one has the other one too, and is a
  quotation, a placeholder or a comment.
* `FreeRun.exists_next`: a slash of free text is followed by another character of it that is none.
* `Lexing.slashes_spec`: so no comment is taken for part of a caption or for stray characters, and
  every caption is as long as it can be.
-/

namespace Wireframe

open Text

/-! ## Slashes in free text -/

theorem not_isFree_slash : Shape.isFree '/' = false := by decide

/-- After a slash of free text there is a character that may stand in it by itself. -/
theorem FreeRun.exists_next {front back : List Char} (h : FreeRun (front ++ '/' :: back)) :
    ∃ c more, back = c :: more ∧ Shape.isFree c = true := by
  generalize htext : front ++ '/' :: back = text at h
  induction h generalizing front with
  | nil => exact absurd htext (List.append_ne_nil_of_right_ne_nil _ (List.cons_ne_nil _ _))
  | char hc _ ih =>
    cases front with
    | nil => exact absurd (List.cons.inj htext).1.symm (ne_slash_of_isFree hc)
    | cons d front => exact ih (List.cons.inj htext).2
  | @slash c text hc _ ih =>
    rcases front with _ | ⟨d, _ | ⟨e, front⟩⟩
    · exact ⟨c, text, (List.cons.inj htext).2, hc⟩
    · exact absurd (List.cons.inj (List.cons.inj htext).2).1.symm (ne_slash_of_isFree hc)
    · exact ih (List.cons.inj (List.cons.inj htext).2).2

section Lexemes

variable {locale : Locale} {kind : TokenKind} {image rest : List Char}

/-- Free text is a run of free text, and no longer one is at its place. -/
theorem freeRun_of_freeText
    (h : lexemeAt? locale.regularTerminals (image ++ rest) = some (.freeText, image.length)) :
    image ≠ [] ∧ FreeRun image ∧ ∀ more, more <+: rest → more ≠ [] → ¬ FreeRun (image ++ more) := by
  obtain ⟨-, hlength, hne⟩ := Locale.of_lexemeAt?_freeText h
  refine ⟨List.length_pos_iff.1 (Nat.pos_of_ne_zero hne), ?_, ?_⟩
  · have hrun := FreeRun.take_freeTextLength (image ++ rest)
    rwa [hlength, List.take_left] at hrun
  · rintro more ⟨back, rfl⟩ hmore hrun
    rw [← List.append_assoc, hrun.freeTextLength_append, List.length_append] at hlength
    exact hmore (List.length_eq_zero_iff.1 (by omega))

/-! ## Two slashes in a row -/

/-- No match of a word or a number goes over a slash. -/
theorem length?_slash (locale : Locale) {t : Terminal}
    (ht : t ∈ locale.wordTerminals ∨ t = ⟨.number, .number⟩) (front back : List Char) :
    t.shape.length? (front ++ '/' :: back) = t.shape.length? front := by
  rcases ht with ht | rfl
  · have hslash : IsUnread '/' := (isUnread_of_mem (by decide)).1
    rw [Locale.length?_of_mem ht, Locale.length?_of_mem ht, findSome?_congr fun f hf =>
      Locale.formLength?_stop (Locale.mem_forms ht hf) hslash rfl rfl]
  · rw [Shape.length?, Shape.length?, numberLength_stop front back rfl]

/-- No single character other than a slash is a match with a slash in it. -/
theorem single_slash {c : Char} (hc : c ≠ '/') {front back more : List Char} :
    (Shape.single c).length? (front ++ '/' :: more) ≠ some (front ++ '/' :: back).length := by
  intro h
  rw [Shape.length?] at h
  split at h
  · next hhead =>
    cases front with
    | nil => exact hc (Option.some.inj hhead).symm
    | cons d front => simp at h
  · cases h

/-- A literal in delimiters with a slash in it has more before the slash and after it. -/
theorem ne_nil_of_literal {front back : List Char} (hkind : kind.startsLiteral)
    (h : lexemeAt? locale.regularTerminals (front ++ '/' :: back ++ rest) =
      some (kind, (front ++ '/' :: back).length)) : front ≠ [] ∧ back ≠ [] := by
  obtain ⟨c, body, himage, hopens, hclosing⟩ := exists_of_literal hkind h
  obtain ⟨d, hlast, hcloses⟩ := (closed_of_closingLength? hclosing).exists_last
  have hslash : kind.opens '/' = false ∧ kind.closes '/' = false := by
    cases kind <;> exact ⟨rfl, rfl⟩
  constructor
  · rintro rfl
    rw [← (List.cons.inj himage).1, hslash.1] at hopens
    cases hopens
  · rintro rfl
    have hlast' : (c :: body).getLast? = some d := by rw [List.getLast?_cons, hlast]; rfl
    rw [← himage, List.getLast?_concat] at hlast'
    rw [← Option.some.inj hlast', hslash.2] at hcloses
    cases hcloses

/-- A lexeme with a slash that is before another one has the other one too, and is a quotation, a
    placeholder or a comment; it is a comment if it begins with the slash. -/
theorem slashes_of_lexemeAt? {front back more : List Char}
    (h : lexemeAt? locale.regularTerminals (front ++ '/' :: back ++ rest) =
      some (kind, (front ++ '/' :: back).length)) (hnext : back ++ rest = '/' :: more) :
    (kind.startsLiteral ∨ kind = .comment) ∧ back ≠ [] ∧ (front = [] → kind = .comment) := by
  have hmem : '/' ∈ front ++ '/' :: back := List.mem_append_right _ List.mem_cons_self
  obtain ⟨t, ht, rfl, hlength⟩ := exists_terminal h
  rw [List.append_assoc, List.cons_append] at hlength
  -- a match that goes on to the slash only would be longer than it is
  have hshort :
      t.shape.length? (front ++ '/' :: (back ++ rest)) = t.shape.length? front → False := by
    intro heq
    rw [heq] at hlength
    have hle := (locale.length?_le ht hlength).2
    rw [List.length_append, List.length_cons] at hle
    omega
  have hliteral : t.kind.startsLiteral → _ := fun hkind =>
    have hne := ne_nil_of_literal hkind h
    (⟨.inl hkind, hne.2, fun hnil => absurd hnil hne.1⟩ :
      (t.kind.startsLiteral ∨ t.kind = .comment) ∧ back ≠ [] ∧ (front = [] → t.kind = .comment))
  rcases Locale.mem_terminals.1 ht with ht | ht | rfl
  · simp only [Terminal.shared, List.mem_cons, List.not_mem_nil, or_false] at ht
    -- line end, blanks, comment, number, the two kinds of literals, comma and colon
    rcases ht with rfl | rfl | rfl | rfl | rfl | rfl | rfl | rfl
    · exact absurd (forall_of_lineEnd h _ hmem) (by decide)
    · exact absurd (isInnerBlank_of_blanks h _ hmem) (by decide)
    · refine ⟨.inr rfl, ?_, fun _ => rfl⟩
      rintro rfl
      obtain ⟨-, -, -, hrest⟩ := exists_of_comment h
      exact absurd (hrest '/' (congrArg List.head? hnext)) (by decide)
    · exact (hshort (length?_slash locale (.inr rfl) front _)).elim
    · exact hliteral rfl
    · exact hliteral rfl
    · exact absurd hlength (single_slash (by decide))
    · exact absurd hlength (single_slash (by decide))
  · exact (hshort (length?_slash locale (.inl ht) front _)).elim
  · obtain ⟨c, back', rfl, hc⟩ := (freeRun_of_freeText h).2.1.exists_next
    obtain ⟨rfl, -⟩ := List.cons.inj hnext
    rw [not_isFree_slash] at hc
    cases hc

end Lexemes

/-! ## Slashes in segments -/

namespace Splits

variable {locale : Locale} {text image front back : List Char}
  {kind : TokenKind} {pieces : List Piece}

/-- At no place of a stray run does a comment begin. -/
theorem not_slashes (h : Splits locale text (.stray image :: pieces))
    (himage : image = front ++ back)
    (hne : back ≠ []) (more : List Char) : text.drop front.length ≠ '/' :: '/' :: more := by
  intro htext
  cases h with
  | stray _ hnone _ _ =>
    have hcomment : (⟨.comment, .comment⟩ : Terminal) ∈ locale.terminals :=
      Locale.mem_terminals.2 (.inl (by simp [Terminal.shared]))
    have := hnone front back himage hne _ hcomment
    rw [himage, List.append_assoc, List.drop_left] at htext
    rw [htext] at this
    cases this

end Splits

/-- Whether none of the two bytes from an offset on are within a span. -/
def Span.Misses (s : Span) (offset : Nat) : Prop :=
  s.stop ≤ offset ∨ offset + 2 ≤ s.start

section Segments

variable {locale : Locale} {text front back : List Char} {l : Lexing} {segments : List Segment}

namespace IsSegmented

/-- Two slashes in a row are in one segment: in a literal, after its delimiter, or in a comment. -/
theorem exists_slashes (h : IsSegmented locale text l segments)
    (htext : text = front ++ '/' :: '/' :: back) :
    ∃ before segment after left right, segments = before ++ segment :: after ∧
      segment.piece.image = left ++ '/' :: '/' :: right ∧ front = textOf before ++ left ∧
      ((∃ t, segment = .token t ∧ t.kind.startsLiteral ∧ left ≠ []) ∨
        ∃ t, segment = .comment t) := by
  obtain ⟨before, segment, after, left, right, hsplit, himage, hfront, hback⟩ :=
    exists_segment (h.splits.flatMap_image.trans htext)
  have hpiece := h.splits_at hsplit
  -- the second slash is the next character, of the segment or after it
  have hnext : right ++ textOf after = '/' :: back := hback.symm
  cases hp : segment.piece with
  | lexeme kind image =>
    obtain rfl : image = left ++ '/' :: right := by rw [hp] at himage; exact himage
    rw [hp] at hpiece
    obtain ⟨hkind, hright, hleft⟩ := slashes_of_lexemeAt? hpiece.lexemeAt?_eq hnext
    obtain ⟨c, right, rfl⟩ := List.exists_cons_of_ne_nil hright
    obtain ⟨rfl, -⟩ := List.cons.inj hnext
    refine ⟨before, segment, after, left, right, hsplit, by rw [hp]; rfl, hfront, ?_⟩
    have hmem : segment ∈ segments := hsplit ▸ List.mem_append_right _ List.mem_cons_self
    cases segment with
    | token t =>
      obtain ⟨rfl, -⟩ := Piece.lexeme.inj hp
      rcases hkind with hkind | hkind
      · refine .inl ⟨t, rfl, hkind, fun hnil => ?_⟩
        rw [hleft hnil] at hkind
        cases hkind
      · have hskipped := h.kind_token t hmem
        rw [hkind] at hskipped
        cases hskipped
    | comment t => exact .inr ⟨t, rfl⟩
    | blanks image =>
      obtain ⟨rfl, -⟩ := Piece.lexeme.inj hp
      rcases hkind with hkind | hkind <;> cases hkind
    | commentEnd image =>
      obtain ⟨rfl, -⟩ := Piece.lexeme.inj hp
      rcases hkind with hkind | hkind <;> cases hkind
    | stray image range => cases hp
  | stray image =>
    obtain rfl : image = left ++ '/' :: right := by rw [hp] at himage; exact himage
    rw [hp] at hpiece
    refine absurd ?_ (hpiece.not_slashes rfl (List.cons_ne_nil _ _) back)
    rw [Piece.image, List.append_assoc, List.drop_left, List.cons_append, hnext]

/-- What is neither a literal nor a comment has none of two slashes in a row. -/
theorem misses (h : IsSegmented locale text l segments) (htext : text = front ++ '/' :: '/' :: back)
    {segment : Segment} (hmem : segment ∈ segments)
    (htoken : ∀ t, segment = .token t → ¬ t.kind.startsLiteral)
    (hcomment : ∀ t, segment ≠ .comment t)
    {range : Range} (hrange : range ∈ segment.range?) : range.span.Misses (byteLength front) := by
  obtain ⟨before, segment', after, left, right, hsplit, himage, rfl, hkind⟩ :=
    h.exists_slashes htext
  obtain ⟨before', after', hsplit'⟩ := List.append_of_mem hmem
  rw [h.span_eq hsplit' hrange, Span.Misses, byteLength_append]
  dsimp only
  have hlength : byteLength segment'.piece.image =
      byteLength left + (1 + (1 + byteLength right)) := by
    rw [himage, byteLength_append]
    rfl
  -- segments do not overlap, so it would be the segment of the slashes
  by_contra hnot
  have heq := segment_unique (hsplit.symm.trans hsplit') (by omega) (by omega)
  rcases hkind with ⟨t, hkind, hliteral, -⟩ | ⟨t, hkind⟩
  · exact htoken t (heq.symm.trans hkind) hliteral
  · exact hcomment t (heq.symm.trans hkind)

/-- Two slashes in a row begin a comment, or they are in one token, after its beginning. -/
theorem exists_token_of_slashes (h : IsSegmented locale text l segments)
    (htext : text = front ++ '/' :: '/' :: back) :
    (∃ t ∈ l.tokens ++ l.comments, (t.kind.startsLiteral ∨ t.kind = .comment) ∧
      t.offset < byteLength front ∧ byteLength front + 2 ≤ t.range.span.stop) ∨
        ∃ c ∈ l.comments, c.kind = .comment ∧ c.offset = byteLength front := by
  obtain ⟨before, segment, after, left, right, hsplit, himage, rfl, hkind⟩ := h.exists_slashes htext
  have hmem : segment ∈ segments := hsplit ▸ List.mem_append_right _ List.mem_cons_self
  have hlength : byteLength segment.piece.image =
      byteLength left + (1 + (1 + byteLength right)) := by
    rw [himage, byteLength_append]
    rfl
  have hwithin : ∀ t : Token, t.range ∈ segment.range? → left ≠ [] →
      t.offset < byteLength (textOf before ++ left) ∧
        byteLength (textOf before ++ left) + 2 ≤ t.range.span.stop := by
    intro t ht hleft
    have hpos := byteLength_pos hleft
    rw [Token.offset, h.span_eq hsplit ht, byteLength_append]
    dsimp only
    omega
  rw [h.tokens_eq, h.comments_eq]
  rcases hkind with ⟨t, rfl, hliteral, hleft⟩ | ⟨t, rfl⟩
  · refine .inl ⟨t, List.mem_append_left _ ?_, .inl hliteral, hwithin t rfl hleft⟩
    exact List.mem_filterMap.2 ⟨_, hmem, rfl⟩
  · have hcomment : t ∈ segments.filterMap Segment.comment? := List.mem_filterMap.2 ⟨_, hmem, rfl⟩
    have hkind := h.kind_comment t hmem
    -- two slashes at the beginning of a comment are those that make it one
    cases left with
    | nil =>
      refine .inr ⟨t, hcomment, hkind, ?_⟩
      rw [Token.offset, h.span_eq hsplit rfl, List.append_nil]
    | cons c left =>
      exact .inl ⟨t, List.mem_append_right _ hcomment, .inr hkind,
        hwithin t rfl (List.cons_ne_nil _ _)⟩

end IsSegmented

end Segments

/-! ## Free text to the full -/

/-- A run of free text that ends where it must, given what is after it. -/
structure IsLongestRun (run rest : List Char) : Prop where
  ne_nil : run ≠ []
  isRun : FreeRun run
  /-- A comment does not begin in it. -/
  not_slashes : ¬ ['/', '/'] <:+: run
  /-- Nor with its last character. -/
  last_ne : run.getLast? ≠ some '/'
  longest : ∀ more, more <+: rest → more ≠ [] → ¬ FreeRun (run ++ more)

theorem FreeRun.not_slashes {text : List Char} (h : FreeRun text) :
    ¬ ['/', '/'] <:+: text ∧ text.getLast? ≠ some '/' := by
  constructor
  · rintro ⟨front, back, rfl⟩
    rw [List.append_assoc] at h
    obtain ⟨c, more, hback, hc⟩ := h.exists_next
    rw [← (List.cons.inj hback).1, not_isFree_slash] at hc
    cases hc
  · intro hlast
    obtain ⟨front, rfl⟩ := List.getLast?_eq_some_iff.1 hlast
    obtain ⟨c, more, hnil, -⟩ := h.exists_next
    cases hnil

theorem IsSegmented.isLongestRun {locale : Locale} {text : List Char} {l : Lexing}
    {segments : List Segment} (h : IsSegmented locale text l segments)
    {t : Token} (ht : t ∈ l.tokens) (hkind : t.kind = .freeText) : ∃ front back,
      text = front ++ t.chars ++ back ∧ t.offset = byteLength front ∧
        IsLongestRun t.chars back := by
  rw [h.tokens_eq] at ht
  obtain ⟨segment, hmem, hsegment⟩ := List.mem_filterMap.1 ht
  obtain rfl := mem_of_token? hsegment
  obtain ⟨before, after, hsplit⟩ := List.append_of_mem hmem
  have hlexeme := (h.splits_at hsplit).lexemeAt?_eq
  rw [hkind] at hlexeme
  obtain ⟨hne, hrun, hlongest⟩ := freeRun_of_freeText hlexeme
  refine ⟨textOf before, textOf after, ?_, congrArg Span.start (h.span_eq hsplit rfl), hne, hrun,
    hrun.not_slashes.1, hrun.not_slashes.2, hlongest⟩
  have hcons : textOf (.token t :: after) = t.chars ++ textOf after := rfl
  rw [List.append_assoc, ← hcons, ← textOf_append, ← hsplit]
  exact h.splits.flatMap_image.symm

/-- Two slashes in a row are in a quotation, in a placeholder or in a comment, not at its beginning,
    or they begin a comment; no caption and no stray run has one of them. And every caption goes as
    far as free text can. -/
theorem Lexing.slashes_spec (locale : Locale) (text : List Char) :
    (∀ front back, text = front ++ '/' :: '/' :: back →
      ((∃ t ∈ (ofText locale text).tokens ++ (ofText locale text).comments,
          (t.kind = .quotation ∨ t.kind = .placeholder ∨ t.kind = .comment) ∧
            t.offset < byteLength front ∧ byteLength front + 2 ≤ t.range.span.stop) ∨
        ∃ c ∈ (ofText locale text).comments, c.kind = .comment ∧ c.offset = byteLength front) ∧
      (∀ t ∈ (ofText locale text).tokens, t.kind = .freeText →
        t.range.span.Misses (byteLength front)) ∧
      ∀ e ∈ (ofText locale text).errors, e.range.span.Misses (byteLength front)) ∧
    ∀ t ∈ (ofText locale text).tokens, t.kind = .freeText → ∃ front back,
      text = front ++ t.chars ++ back ∧ t.offset = byteLength front ∧
        IsLongestRun t.chars back := by
  have h := isSegmented_segmentsOf locale text
  refine ⟨fun front back htext => ⟨?_, fun t ht hkind => ?_, fun e he => ?_⟩,
    fun t ht hkind => h.isLongestRun ht hkind⟩
  · rcases h.exists_token_of_slashes htext with ⟨t, ht, hkind, hplace⟩ | hcomment
    · refine .inl ⟨t, ht, ?_, hplace⟩
      cases hk : t.kind <;> simp_all [TokenKind.startsLiteral]
    · exact .inr hcomment
  · rw [h.tokens_eq] at ht
    obtain ⟨segment, hmem, hsegment⟩ := List.mem_filterMap.1 ht
    obtain rfl := mem_of_token? hsegment
    refine h.misses htext hmem (fun t' heq hliteral => ?_) (fun _ => nofun) rfl
    rw [← Segment.token.inj heq, hkind] at hliteral
    cases hliteral
  · rw [h.errors_eq] at he
    obtain ⟨segment, hmem, hsegment⟩ := List.mem_filterMap.1 he
    refine h.misses htext hmem (fun t heq => ?_) (fun t heq => ?_)
      (Segment.range_of_error? hsegment)
    · rw [heq] at hsegment
      cases hsegment
    · rw [heq] at hsegment
      cases hsegment

end Wireframe
