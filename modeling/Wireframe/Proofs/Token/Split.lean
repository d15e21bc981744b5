import Mathlib.Data.List.Basic
import Wireframe.Proofs.Token.Line

/-!
# How a text is split

`Splits` says, without reference to how a text is cut, what pieces it may be cut into: a lexeme is
the match at its place, a stray run is where nothing matches, and no two stray runs are next to each
other. There is exactly one such way to split a text (`splits_iff`), and it is never stuck.

* `Splits.existsUnique_lineEnd`: every line feed ends one line end;
* `Splits.lineEnd_of_comment`: a comment goes on to the line end, unless a carriage return stands
  alone.
-/

namespace Wireframe

/-- A text and pieces that it is split into: the matches at their places, and the runs of characters
    at which nothing matches, each as long as it can be. -/
inductive Splits (locale : Locale) : List Char → List Piece → Prop
  | nil : Splits locale [] []
  | lexeme {kind : TokenKind} {image rest : List Char} {pieces : List Piece} : image ≠ [] →
    lexemeAt? locale.regularTerminals (image ++ rest) = some (kind, image.length) →
      Splits locale rest pieces → Splits locale (image ++ rest) (.lexeme kind image :: pieces)
  | stray {image rest : List Char} {pieces : List Piece} : image ≠ [] →
    (∀ front back, image = front ++ back → back ≠ [] →
      ∀ t ∈ locale.terminals, t.shape.length? (back ++ rest) = none) →
    (∀ image', pieces.head? ≠ some (.stray image')) →
      Splits locale rest pieces → Splits locale (image ++ rest) (.stray image :: pieces)

/-- The kind of a lexeme; a stray run has none. -/
def Piece.kind? : Piece → Option TokenKind
  | lexeme kind _ => some kind
  | stray _ => none

/-- Whether every carriage return of a text stands before a line feed. -/
def HasPairedReturns (text : List Char) : Prop :=
  ∀ front back, text = front ++ '\r' :: back → back.head? = some '\n'

section

variable {locale : Locale} {text front back image rest : List Char} {pieces more : List Piece}

/-- A character of two texts is in the first or in the second one. -/
theorem append_eq_append_cons {α : Type} {as bs front back : List α} {a : α}
    (h : as ++ bs = front ++ a :: back) : (∃ more, front = as ++ more ∧ bs = more ++ a :: back) ∨
      ∃ more, as = front ++ a :: more ∧ back = more ++ bs := by
  rcases List.append_eq_append_iff.1 h with h | ⟨_ | ⟨b, more⟩, has, hbs⟩
  · exact .inl h
  · exact .inl ⟨[], by rw [has, List.append_nil, List.append_nil], hbs.symm⟩
  · obtain ⟨rfl, rfl⟩ := List.cons.inj hbs
    exact .inr ⟨more, has, rfl⟩

theorem lexemeAt?_eq_none_iff : lexemeAt? locale.regularTerminals text = none ↔
    ∀ t ∈ locale.terminals, t.shape.length? text = none := by
  rw [Locale.terminals, List.forall_mem_append, ← Wireframe.longestMatch?_eq_none_iff,
    List.forall_mem_singleton, lexemeAt?]
  cases longestMatch? locale.regularTerminals text <;> simp

/-- What is cut where nothing matches is one stray run. -/
theorem cut_stray (hnone : ∀ front back, image = front ++ back → back ≠ [] →
      lexemeAt? locale.regularTerminals (back ++ rest) = none) (hne : image ≠ [])
    (hhead : ∀ image', (cut locale.regularTerminals rest).head? ≠ some (.stray image')) :
    cut locale.regularTerminals (image ++ rest) =
      .stray image :: cut locale.regularTerminals rest := by
  induction image with
  | nil => exact absurd rfl hne
  | cons c image ih =>
    have hc : lexemeAt? locale.regularTerminals (c :: (image ++ rest)) = none := hnone [] _ rfl hne
    rw [List.cons_append, cut_none hc]
    cases image with
    | nil =>
      rw [List.nil_append, consStray.eq_def]
      split
      · next h => exact absurd (congrArg List.head? h) (hhead _)
      · rfl
    | cons d image =>
      rw [ih (fun front back h => hnone (c :: front) back (congrArg _ h)) (List.cons_ne_nil _ _)]
      rfl

/-- A character at which nothing matches is put in front of what is split already. -/
theorem Splits.consStray {c : Char} (h : Splits locale rest pieces)
    (hnone : lexemeAt? locale.regularTerminals (c :: rest) = none) :
    Splits locale (c :: rest) (consStray c pieces) := by
  rw [lexemeAt?_eq_none_iff] at hnone
  have halone : (∀ image', pieces.head? ≠ some (.stray image')) →
      Splits locale ([c] ++ rest) (.stray [c] :: pieces) := by
    intro hhead
    refine .stray (List.cons_ne_nil _ _) (fun front back h hne => ?_) hhead h
    rcases List.append_eq_singleton_iff.1 h.symm with ⟨rfl, rfl⟩ | ⟨rfl, rfl⟩
    · exact hnone
    · exact absurd rfl hne
  cases h with
  | nil => exact halone fun _ h => nomatch h
  | lexeme => exact halone fun _ h => nomatch h
  | @stray image rest pieces _ hstray hhead hrest =>
    have hlonger : Splits locale ((c :: image) ++ rest) (.stray (c :: image) :: pieces) := by
      refine .stray (List.cons_ne_nil _ _) (fun front back h hne => ?_) hhead hrest
      rcases List.cons_eq_append_iff.1 h with ⟨rfl, rfl⟩ | ⟨front, rfl, rfl⟩
      · exact hnone
      · exact hstray front back rfl hne
    exact hlonger

theorem splits_cut (locale : Locale) (text : List Char) :
    Splits locale text (cut locale.regularTerminals text) := by
  induction text using cut_induction locale with
  | nil =>
    rw [cut_nil]
    exact .nil
  | stray c rest hnone ih =>
    rw [cut_none hnone]
    exact ih.consStray hnone
  | lexeme kind image rest hne hlexeme ih =>
    rw [cut_append hlexeme]
    exact .lexeme hne hlexeme ih

/-- There is one way to split a text, and it is how the text is cut. -/
theorem splits_iff : Splits locale text pieces ↔ cut locale.regularTerminals text = pieces := by
  refine ⟨fun h => ?_, fun h => h ▸ splits_cut locale text⟩
  induction h with
  | nil => exact cut_nil _
  | lexeme _ hlexeme _ ih => rw [cut_append hlexeme, ih]
  | stray hne hstray hhead _ ih =>
    rw [← ih] at hhead ⊢
    exact cut_stray (fun front back h hback => lexemeAt?_eq_none_iff.2 (hstray front back h hback))
      hne hhead

namespace Splits

theorem lexemeAt?_eq {kind : TokenKind} (h : Splits locale text (.lexeme kind image :: pieces)) :
    lexemeAt? locale.regularTerminals text = some (kind, image.length) := by
  cases h with
  | lexeme _ hlexeme _ => exact hlexeme

theorem flatMap_image (h : Splits locale text pieces) : pieces.flatMap Piece.image = text := by
  induction h with
  | nil => rfl
  | lexeme _ _ _ ih => exact congrArg _ ih
  | stray _ _ _ _ ih => exact congrArg _ ih

theorem image_ne_nil (h : Splits locale text pieces) : ∀ piece ∈ pieces, piece.image ≠ [] := by
  induction h with
  | nil => exact fun _ h => absurd h List.not_mem_nil
  | lexeme hne _ _ ih => exact List.forall_mem_cons.2 ⟨hne, ih⟩
  | stray hne _ _ _ ih => exact List.forall_mem_cons.2 ⟨hne, ih⟩

/-- The rest of a text is split into the rest of the pieces. -/
theorem drop (h : Splits locale text (more ++ pieces)) :
    Splits locale (pieces.flatMap Piece.image) pieces := by
  induction more generalizing text with
  | nil => exact h.flatMap_image ▸ h
  | cons piece more ih =>
    cases h with
    | lexeme _ _ h => exact ih h
    | stray _ _ _ h => exact ih h

/-! ## Line feeds -/

theorem lexemeAt?_lineFeed_cons :
    lexemeAt? locale.regularTerminals ('\n' :: rest) = some (.lineEnd, 1) := by
  rw [lexemeAt?, longestMatch?_lineFeed]

/-- A line end has one line feed, its last character, and other pieces have none. -/
theorem lineFeed (h : Splits locale text pieces) : ∀ piece ∈ pieces,
    (piece.kind? = some .lineEnd → ∃ front, piece.image = front ++ ['\n'] ∧ '\n' ∉ front) ∧
      (piece.kind? ≠ some .lineEnd → '\n' ∉ piece.image) := by
  induction h with
  | nil => exact fun _ h => absurd h List.not_mem_nil
  | @lexeme kind image rest pieces _ hlexeme _ ih =>
    refine List.forall_mem_cons.2 ⟨⟨fun hkind => ?_, fun hkind => ?_⟩, ih⟩
    · obtain rfl : kind = .lineEnd := Option.some.inj hkind
      have := take_of_lineEnd hlexeme
      rwa [List.take_left] at this
    · have := lineFeed_notMem_take (mt (congrArg some) hkind) hlexeme
      rwa [List.take_left] at this
  | @stray image rest pieces _ hstray _ _ ih =>
    refine List.forall_mem_cons.2
      ⟨⟨fun hkind => absurd hkind (Option.some_ne_none _).symm, fun _ hmem => ?_⟩, ih⟩
    obtain ⟨front, back, hsplit⟩ := List.append_of_mem hmem
    have := lexemeAt?_eq_none_iff.2 (hstray front ('\n' :: back) hsplit (List.cons_ne_nil _ _))
    rw [List.cons_append, lexemeAt?_lineFeed_cons] at this
    cases this

/-- How far pieces go in a text tells how many they are. -/
theorem take_inj (h : Splits locale text pieces) {n m : Nat} (hn : n ≤ pieces.length)
    (hm : m ≤ pieces.length)
    (heq : (pieces.take n).flatMap Piece.image = (pieces.take m).flatMap Piece.image) : n = m := by
  have hne := h.image_ne_nil
  clear h
  induction pieces generalizing n m with
  | nil => rw [Nat.le_zero.1 hn, Nat.le_zero.1 hm]
  | cons piece pieces ih =>
    obtain ⟨hpiece, hne⟩ := List.forall_mem_cons.1 hne
    cases n with
    | zero =>
      cases m with
      | zero => rfl
      | succ m => exact absurd (List.append_eq_nil_iff.1 heq.symm).1 hpiece
    | succ n =>
      cases m with
      | zero => exact absurd (List.append_eq_nil_iff.1 heq).1 hpiece
      | succ m =>
        have hrest : (pieces.take n).flatMap Piece.image = (pieces.take m).flatMap Piece.image :=
          List.append_cancel_left heq
        exact congrArg (· + 1)
          (ih (Nat.le_of_succ_le_succ hn) (Nat.le_of_succ_le_succ hm) hrest hne)

theorem exists_lineEnd (h : Splits locale text pieces) (htext : text = front ++ '\n' :: back) :
    ∃ n, pieces[n]?.bind Piece.kind? = some .lineEnd ∧
      (pieces.take (n + 1)).flatMap Piece.image = front ++ ['\n'] := by
  induction pieces generalizing text front with
  | nil =>
    rw [← h.flatMap_image] at htext
    exact absurd htext (List.append_ne_nil_of_right_ne_nil _ (List.cons_ne_nil _ _)).symm
  | cons piece pieces ih =>
    have hrest := drop (show Splits locale text ([piece] ++ pieces) from h)
    rw [← h.flatMap_image, List.flatMap_cons] at htext
    obtain ⟨⟨hend, hother⟩, -⟩ := List.forall_mem_cons.1 h.lineFeed
    rcases append_eq_append_cons htext with ⟨more, rfl, hmore⟩ | ⟨more, himage, -⟩
    · -- the line feed is not in the first piece
      obtain ⟨n, hn, htake⟩ := ih hrest hmore
      exact ⟨n + 1, hn, by rw [List.take_succ_cons, List.flatMap_cons, htake, List.append_assoc]⟩
    · have hmem : '\n' ∈ piece.image := himage ▸ List.mem_append_right _ List.mem_cons_self
      have hkind : piece.kind? = some .lineEnd := Decidable.byContradiction fun h => hother h hmem
      obtain ⟨line, hline, hnotMem⟩ := hend hkind
      -- the line feed of a line end is its last character, and nothing else in it is one
      obtain ⟨rfl, -, rfl⟩ : line = front ∧ '\n' = '\n' ∧ [] = more :=
        (List.append_cons_inj_of_notMem hnotMem List.not_mem_nil).1 (hline.symm.trans himage)
      refine ⟨0, hkind, ?_⟩
      rw [List.take_succ_cons, List.flatMap_cons, hline]
      exact List.append_nil _

/-- Every line feed is the last character of one line end. -/
theorem existsUnique_lineEnd (h : Splits locale text pieces)
    (htext : text = front ++ '\n' :: back) :
    ∃! n, pieces[n]?.bind Piece.kind? = some .lineEnd ∧
      (pieces.take (n + 1)).flatMap Piece.image = front ++ ['\n'] := by
  have hlt : ∀ n, pieces[n]?.bind Piece.kind? = some .lineEnd → n + 1 ≤ pieces.length := by
    intro n hn
    obtain ⟨piece, hpiece, -⟩ := Option.bind_eq_some_iff.1 hn
    exact (List.getElem?_eq_some_iff.1 hpiece).1
  obtain ⟨n, hn, htake⟩ := h.exists_lineEnd htext
  refine ⟨n, ⟨hn, htake⟩, fun m ⟨hm, htake'⟩ => ?_⟩
  exact Nat.succ.inj (h.take_inj (hlt m hm) (hlt n hn) (htake'.trans htake.symm))

/-- After a comment its line ends, where no carriage return stands alone. -/
theorem lineEnd_of_comment {piece : Piece} {comment : List Char}
    (h : Splits locale text (.lexeme .comment comment :: piece :: pieces))
    (hreturns : HasPairedReturns text) : piece.kind? = some .lineEnd := by
  cases h with
  | @lexeme kind image rest _ _ hlexeme hrest =>
    obtain ⟨-, -, -, hbreak⟩ := exists_of_comment hlexeme
    cases hrest with
    | @lexeme kind image rest _ hne hnext _ =>
      obtain ⟨c, image, rfl⟩ := List.exists_cons_of_ne_nil hne
      exact congrArg some (kind_of_isBreak (hbreak c rfl) hnext)
    | @stray image rest _ hne hstray _ _ =>
      obtain ⟨c, image, rfl⟩ := List.exists_cons_of_ne_nil hne
      have hnone := hstray [] (c :: image) rfl hne
      have hc : c = '\r' ∨ c = '\n' := by simpa [Shape.isBreak] using hbreak c rfl
      -- a line break that no lexeme takes would be a carriage return that stands alone
      rcases hc with rfl | rfl
      · obtain ⟨back, hback⟩ := List.head?_eq_some_iff.1 (hreturns comment (image ++ rest) rfl)
        have := hnone ⟨.lineEnd, .lineEnd⟩ (by simp [Locale.terminals, Locale.regularTerminals_eq,
          Terminal.shared])
        rw [List.cons_append, hback] at this
        cases this
      · have := lexemeAt?_eq_none_iff.2 hnone
        rw [List.cons_append, lexemeAt?_lineFeed_cons] at this
        cases this

end Splits

end

end Wireframe
