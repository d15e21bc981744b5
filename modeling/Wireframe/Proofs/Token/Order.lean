import Wireframe.Token.Lexing

/-!
# The order of tokens

A lexer yields tokens that start one after the other (`InOrder`), and so offsets tell how they
stand in the source: whatever order they are brought into, sorting by offset restores it
(`InOrder.sortByOffset_eq`). What the grammar reads and the comments are apart in a lexing, but
together they are in order, too (`Lexing.exists_inOrder`).
-/

namespace Wireframe

/-! ## Sorting by offset -/

theorem insertByOffset_perm (t : Token) (tokens : List Token) :
    (insertByOffset t tokens).Perm (t :: tokens) := by
  induction tokens with
  | nil => exact .refl _
  | cons other rest ih =>
    rw [insertByOffset]
    split
    · exact .refl _
    · exact (ih.cons other).trans (.swap t other rest)

theorem sortByOffset_perm (tokens : List Token) : (sortByOffset tokens).Perm tokens := by
  induction tokens with
  | nil => exact .refl _
  | cons t tokens ih => exact (insertByOffset_perm t _).trans (ih.cons t)

theorem pairwise_insertByOffset (t : Token) {tokens : List Token}
    (h : tokens.Pairwise fun a b => a.offset ≤ b.offset) :
    (insertByOffset t tokens).Pairwise fun a b => a.offset ≤ b.offset := by
  induction tokens with
  | nil => exact List.pairwise_singleton _ _
  | cons other rest ih =>
    obtain ⟨hother, hrest⟩ := List.pairwise_cons.1 h
    rw [insertByOffset]
    split
    · next hle =>
      refine List.pairwise_cons.2 ⟨fun a ha => ?_, h⟩
      rcases List.mem_cons.1 ha with rfl | ha
      · exact hle
      · exact Nat.le_trans hle (hother a ha)
    · next hgt =>
      refine List.pairwise_cons.2 ⟨fun a ha => ?_, ih hrest⟩
      rcases List.mem_cons.1 ((insertByOffset_perm t rest).subset ha) with rfl | ha
      · omega
      · exact hother a ha

theorem pairwise_sortByOffset (tokens : List Token) :
    (sortByOffset tokens).Pairwise fun a b => a.offset ≤ b.offset := by
  induction tokens with
  | nil => exact .nil
  | cons t tokens ih => exact pairwise_insertByOffset t ih

/-- Tokens that start one after the other. -/
def InOrder (tokens : List Token) : Prop :=
  tokens.Pairwise fun a b => a.offset < b.offset

namespace InOrder

variable {tokens : List Token}

theorem sublist (h : InOrder tokens) {some : List Token} (hsub : some.Sublist tokens) :
    InOrder some :=
  List.Pairwise.sublist hsub h

theorem pairwise_le (h : InOrder tokens) : tokens.Pairwise fun a b => a.offset ≤ b.offset :=
  h.imp Nat.le_of_lt

/-- The tokens before a place come first. -/
theorem filter_eq_takeWhile (h : InOrder tokens) (n : Nat) :
    tokens.filter (·.offset < n) = tokens.takeWhile (·.offset < n) := by
  induction tokens with
  | nil => rfl
  | cons t tokens ih =>
    obtain ⟨ht, htokens⟩ := List.pairwise_cons.1 h
    rw [List.filter_cons, List.takeWhile_cons, ih htokens]
    split
    · rfl
    · next hle =>
      rw [← ih htokens, List.filter_eq_nil_iff]
      intro u hu
      have := ht u hu
      simp only [decide_eq_true_eq] at hle ⊢
      omega

theorem eq_of_offset_eq (h : InOrder tokens) {a b : Token} (ha : a ∈ tokens) (hb : b ∈ tokens)
    (hab : a.offset = b.offset) : a = b := by
  have hinj := List.Pairwise.forall_of_forall_of_flip (R := fun a b : Token => a.offset = b.offset →
    a = b) (fun _ _ _ => rfl) (h.imp fun hlt heq => absurd heq (Nat.ne_of_lt hlt))
    (h.imp fun hlt heq => absurd heq.symm (Nat.ne_of_lt hlt))
  exact hinj ha hb hab

/-- The last token starts after all others. -/
theorem le_getLast (h : InOrder tokens) {t last : Token} (hlast : tokens.getLast? = some last)
    (ht : t ∈ tokens) : t.offset ≤ last.offset := by
  obtain ⟨before, rfl⟩ := List.getLast?_eq_some_iff.1 hlast
  rcases List.mem_append.1 ht with ht | ht
  · exact Nat.le_of_lt ((List.pairwise_append.1 h).2.2 t ht last List.mem_cons_self)
  · exact Nat.le_of_eq (congrArg Token.offset (List.mem_singleton.1 ht))

/-- There is one way to order tokens by offset. -/
theorem eq_of_perm (h : InOrder tokens) {other : List Token} (hperm : other.Perm tokens)
    (hle : other.Pairwise fun a b => a.offset ≤ b.offset) : other = tokens := by
  refine List.Perm.eq_of_pairwise (fun a b ha hb hab hba => ?_) hle h.pairwise_le hperm
  exact h.eq_of_offset_eq (hperm.subset ha) hb (Nat.le_antisymm hab hba)

/-- Sorting by offset restores the order. -/
theorem sortByOffset_eq (h : InOrder tokens) {other : List Token} (hperm : other.Perm tokens) :
    sortByOffset other = tokens :=
  h.eq_of_perm ((sortByOffset_perm other).trans hperm) (pairwise_sortByOffset other)

/-- Two parts that are in order merge to the whole. -/
theorem merge_eq (h : InOrder tokens) {part part' : List Token}
    (hperm : (part ++ part').Perm tokens) (hpart : InOrder part) (hpart' : InOrder part') :
    List.merge part part' (fun a b => a.offset ≤ b.offset) = tokens := by
  refine h.eq_of_perm (.trans (List.merge_perm_append _) hperm) ?_
  have hmerge : (List.merge part part' fun a b => a.offset ≤ b.offset).Pairwise
      fun a b => decide (a.offset ≤ b.offset) = true :=
    List.pairwise_merge (fun a b c hab hbc => by simp at *; omega) (fun a b => by simp; omega) _ _
      (hpart.pairwise_le.imp fun h => decide_eq_true h)
      (hpart'.pairwise_le.imp fun h => decide_eq_true h)
  exact hmerge.imp fun h => of_decide_eq_true h

end InOrder

/-! ## The order of a lexing -/

/-- Every piece of a text has characters. -/
theorem image_ne_nil_of_mem_cut (terminals : List Terminal) (text : List Char) :
    ∀ piece ∈ cut terminals text, piece.image ≠ [] := by
  fun_induction cut terminals text with
  | case1 => exact fun _ h => absurd h List.not_mem_nil
  | case2 c rest kind n _ ih => exact List.forall_mem_cons.2 ⟨List.cons_ne_nil _ _, ih⟩
  | case3 c rest _ ih =>
    rw [consStray.eq_def]
    split
    · next image pieces h =>
      rw [h] at ih
      exact List.forall_mem_cons.2 ⟨List.cons_ne_nil _ _, (List.forall_mem_cons.1 ih).2⟩
    · exact List.forall_mem_cons.2 ⟨List.cons_ne_nil _ _, ih⟩

theorem byteLength_pos {text : List Char} (h : text ≠ []) : 0 < byteLength text := by
  cases text with
  | nil => exact absurd rfl h
  | cons c rest =>
    have := c.utf8Size_pos
    rw [byteLength]
    omega

/-- Pieces that have characters stand one after the other. -/
theorem apart_locate {pieces : List Piece} (h : ∀ piece ∈ pieces, piece.image ≠ []) (offset : Nat)
    (position : Position) :
    (∀ r ∈ (locate offset position pieces).map Prod.snd,
      offset ≤ r.span.start ∧ r.span.start < r.span.stop) ∧
    ((locate offset position pieces).map Prod.snd).Pairwise fun r s =>
      r.span.stop ≤ s.span.start := by
  induction pieces generalizing offset position with
  | nil => exact ⟨List.forall_mem_nil _, .nil⟩
  | cons piece rest ih =>
    obtain ⟨hpiece, hrest⟩ := List.forall_mem_cons.1 h
    have hpos := byteLength_pos hpiece
    obtain ⟨hafter, hpairwise⟩ := ih hrest (offset + byteLength piece.image)
      (position.advance piece.image)
    refine ⟨List.forall_mem_cons.2 ⟨⟨Nat.le_refl _, Nat.lt_add_of_pos_right hpos⟩, fun r hr => ?_⟩,
      List.pairwise_cons.2 ⟨fun r hr => (hafter r hr).1, hpairwise⟩⟩
    exact ⟨Nat.le_trans (Nat.le_add_right _ _) (hafter r hr).1, (hafter r hr).2⟩

/-- Pieces that have characters start one after the other. -/
theorem pairwise_locate {pieces : List Piece} (h : ∀ piece ∈ pieces, piece.image ≠ [])
    (offset : Nat) (position : Position) :
    (∀ r ∈ (locate offset position pieces).map Prod.snd, offset ≤ r.span.start) ∧
      ((locate offset position pieces).map Prod.snd).Pairwise fun r s =>
        r.span.start < s.span.start := by
  obtain ⟨hplaces, hapart⟩ := apart_locate h offset position
  exact ⟨fun r hr => (hplaces r hr).1,
    hapart.imp_of_mem fun hr _ hle => Nat.lt_of_lt_of_le (hplaces _ hr).2 hle⟩

theorem Position.line_le_advance (p : Position) (text : List Char) :
    p.line ≤ (p.advance text).line := by
  induction text generalizing p with
  | nil => exact Nat.le_refl _
  | cons c text ih =>
    refine Nat.le_trans ?_ (ih (p.step c))
    rw [step]
    split
    · exact Nat.le_succ _
    · exact Nat.le_refl _

/-- Lines go down with the pieces of a text. -/
theorem pairwise_line_locate (offset : Nat) (position : Position) (pieces : List Piece) :
    (∀ r ∈ (locate offset position pieces).map Prod.snd, position.line ≤ r.start.line) ∧
      ((locate offset position pieces).map Prod.snd).Pairwise fun r s =>
        r.start.line ≤ s.start.line := by
  induction pieces generalizing offset position with
  | nil => exact ⟨fun _ h => absurd h List.not_mem_nil, .nil⟩
  | cons piece rest ih =>
    obtain ⟨hafter, hpairwise⟩ :=
      ih (offset + byteLength piece.image) (position.advance piece.image)
    have hall := fun r hr => Nat.le_trans (position.line_le_advance piece.image) (hafter r hr)
    exact ⟨List.forall_mem_cons.2 ⟨Nat.le_refl _, hall⟩, List.pairwise_cons.2 ⟨hall, hpairwise⟩⟩

namespace Lexing

/-- The tokens and the comments of a lexing are tokens at some of the given places, apart by whether
    the grammar reads them. -/
def IsSifted (l : Lexing) (ranges : List Range) : Prop :=
  ∃ all : List Token, (all.map Token.range).Sublist ranges ∧
    l.tokens = all.filter (!·.kind.isSkipped) ∧ l.comments = all.filter (·.kind.isSkipped)

namespace IsSifted

variable {l : Lexing} {ranges : List Range} {t : Token}

theorem skip (h : l.IsSifted ranges) (range : Range) : l.IsSifted (range :: ranges) := by
  obtain ⟨all, hsub, htokens, hcomments⟩ := h
  exact ⟨all, hsub.cons range, htokens, hcomments⟩

theorem consToken (h : l.IsSifted ranges) (ht : t.kind.isSkipped = false) :
    (l.consToken t).IsSifted (t.range :: ranges) := by
  obtain ⟨all, hsub, htokens, hcomments⟩ := h
  refine ⟨t :: all, hsub.cons_cons t.range, ?_, ?_⟩
  · rw [List.filter_cons_of_pos (by rw [ht]; rfl), ← htokens]
    rfl
  · rw [List.filter_cons_of_neg (by rw [ht]; exact Bool.false_ne_true), ← hcomments]
    rfl

theorem consComment (h : l.IsSifted ranges) (ht : t.kind.isSkipped = true) :
    (l.consComment t).IsSifted (t.range :: ranges) := by
  obtain ⟨all, hsub, htokens, hcomments⟩ := h
  refine ⟨t :: all, hsub.cons_cons t.range, ?_, ?_⟩
  · rw [List.filter_cons_of_neg (by rw [ht]; exact Bool.false_ne_true), ← htokens]
    rfl
  · rw [List.filter_cons, if_pos ht, ← hcomments]
    rfl

end IsSifted

/-- What is sifted out of pieces are tokens at the places of the pieces. -/
theorem isSifted_sift (line : LineState) (pieces : List (Piece × Range)) :
    (sift line pieces).IsSifted (pieces.map Prod.snd) := by
  induction pieces generalizing line with
  | nil => exact ⟨[], .slnil, rfl, rfl⟩
  | cons p rest ih =>
    obtain ⟨⟨kind, image⟩ | image, range⟩ := p
    · cases kind with
      | blanks => exact (ih line).skip range
      | comment => exact (ih _).consComment (t := ⟨.comment, String.ofList image, range⟩) rfl
      | lineEnd =>
        rw [sift]
        split
        · exact (ih .fresh).skip range
        · exact (ih .fresh).consToken (t := ⟨.lineEnd, String.ofList image, range⟩) rfl
      | _ => exact (ih _).consToken (t := ⟨_, String.ofList image, range⟩) rfl
    · cases image with
      | nil => exact (ih line).skip range
      | cons c image => exact (ih line).skip range

/-- The tokens and the comments of a text are in order, all together. -/
theorem exists_inOrder (locale : Locale) (text : List Char) :
    ∃ all : List Token, InOrder all ∧
      (ofText locale text).tokens = all.filter (!·.kind.isSkipped) ∧
      (ofText locale text).comments = all.filter (·.kind.isSkipped) := by
  obtain ⟨all, hsub, htokens, hcomments⟩ := isSifted_sift .fresh
    (locate 0 .start (locale.pieces text))
  have hpairwise :=
    (pairwise_locate (image_ne_nil_of_mem_cut locale.regularTerminals text) 0 .start).2
  have horder := List.pairwise_map.1 (List.Pairwise.sublist hsub hpairwise)
  exact ⟨all, horder, htokens, hcomments⟩

/-- What is on an earlier line starts earlier. -/
theorem offset_lt_of_line_lt {locale : Locale} {text : List Char} {t u : Token}
    (ht : t ∈ (ofText locale text).tokens ++ (ofText locale text).comments)
    (hu : u ∈ (ofText locale text).tokens ++ (ofText locale text).comments) (h : t.line < u.line) :
    t.offset < u.offset := by
  obtain ⟨all, hsub, htokens, hcomments⟩ :=
    isSifted_sift .fresh (locate 0 .start (locale.pieces text))
  have hmem : ∀ x ∈ (ofText locale text).tokens ++ (ofText locale text).comments, x ∈ all := by
    refine List.forall_mem_append.2 ⟨fun x hx => ?_, fun x hx => ?_⟩
    · exact List.mem_filter.1 (htokens ▸ hx) |>.1
    · exact List.mem_filter.1 (hcomments ▸ hx) |>.1
  have hpairwise := pairwise_locate (image_ne_nil_of_mem_cut locale.regularTerminals text) 0 .start
  have hranges := List.pairwise_map.1 (List.Pairwise.sublist hsub hpairwise.2)
  have horder : InOrder all := hranges
  have hlines := List.pairwise_map.1
    (List.Pairwise.sublist hsub (pairwise_line_locate 0 .start (locale.pieces text)).2)
  -- of two tokens the earlier one has the lower offset, and is on no later line
  refine List.Pairwise.forall_of_forall_of_flip (R := fun a b : Token => a.line < b.line →
    a.offset < b.offset) ?_ ?_ ?_ (hmem t ht) (hmem u hu) h
  · exact fun _ _ hlt => absurd hlt (Nat.lt_irrefl _)
  · refine horder.imp ?_
    exact fun hlt _ => hlt
  · refine List.Pairwise.imp ?_ hlines
    exact fun hle hlt => absurd hlt (Nat.not_lt.2 hle)

end Lexing

end Wireframe
