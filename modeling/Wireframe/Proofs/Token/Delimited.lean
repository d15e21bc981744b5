import Wireframe.Proofs.Token.Keyword

/-!
# Literals, blanks and comments read back

Where no word begins, the first character says which terminal can match. A text in delimiters ends
at the last closing character of its line, so whether it reads back depends on what else is on the
line: it does if nothing after it could have closed it before, and nothing can now
(`closingLength?_append`).
-/

namespace Wireframe

open Text

/-! ## Where no word begins -/

/-- Terminals that do not match can be left out. -/
theorem longestMatch?_append_of_none {terminals others : List Terminal} {text : List Char}
    (h : ∀ t ∈ others, t.shape.length? text = none) :
    longestMatch? (terminals ++ others) text = longestMatch? terminals text := by
  induction others using List.reverseRecOn with
  | nil => rw [List.append_nil]
  | append_singleton others t ih =>
    rw [List.forall_mem_append, List.forall_mem_singleton] at h
    rw [← List.append_assoc, longestMatch?_concat, betterMatch_of_none h.2, ih h.1]

namespace Locale

variable {locale : Locale}

/-- No word begins with an unread character. -/
theorem wordTerminals_eq_none {c : Char} (hc : IsUnread c) (rest : List Char) :
    ∀ t ∈ locale.wordTerminals, t.shape.length? (c :: rest) = none := by
  intro t ht
  refine (length?_eq_none_iff ht).2 fun f hf => formLength?_eq_none ?_
  have horderly := isOrderly_of_mem (mem_forms ht hf)
  obtain ⟨m, marks, hmarks, hgap, hletter⟩ := WordForm.exists_cons horderly
  rw [hmarks]
  exact spelledLength?_cons_none hgap (hc.reads (Bool.or_eq_true_iff.2 (.inl hletter)))

theorem longestMatch?_unread {c : Char} (hc : IsUnread c) (rest : List Char) :
    longestMatch? locale.regularTerminals (c :: rest) =
      longestMatch? Terminal.shared (c :: rest) := by
  rw [regularTerminals_eq, longestMatch?_append_of_none (wordTerminals_eq_none hc rest)]

end Locale

theorem isUnread_of_isBlank {c : Char} (h : isBlank c) : IsUnread c := by
  refine ⟨isLetter_of_isBlank h, ?_⟩
  rintro rfl
  exact absurd h (by decide)

/-- The characters that a count is written with. -/
def digits : List Char :=
  ['0', '1', '2', '3', '4', '5', '6', '7', '8', '9']

theorem mem_digits {c : Char} (hge : '0' ≤ c) (hle : c ≤ '9') : c ∈ digits := by
  have hall : ∀ n ∈ List.range 10, Char.ofNat (0x30 + n) ∈ digits := by decide
  have h0 : 0x30 ≤ c.toNat := hge
  have h9 : c.toNat ≤ 0x39 := hle
  have := hall (c.toNat - 0x30) (List.mem_range.2 (by omega))
  rwa [Nat.add_sub_cancel' h0, Char.ofNat_toNat] at this

/-- Punctuation that can begin a token. -/
def punctuation : List Char :=
  ['"', '«', '»', '<', ',', '/', '-', '?']

theorem isUnread_of_mem {c : Char} (h : c ∈ punctuation ++ digits) :
    IsUnread c ∧ isBlank c = false := by
  have hall : ∀ d ∈ punctuation ++ digits,
      (isLetter d = false ∧ d ≠ ':') ∧ isBlank d = false := by
    decide
  exact hall c h

/-! ## What a first character decides -/

section First

variable {locale : Locale} {rest : List Char}

/-- Where a character that is in no word begins one shared terminal only, the longest match is
    what that one matches. -/
theorem Locale.longestMatch?_of_begins {c : Char} {t : Terminal} (hc : IsUnread c)
    (ht : t ∈ Terminal.shared) (h : ∀ u ∈ Terminal.shared, u.shape.begins c → u.kind = t.kind) :
    longestMatch? locale.regularTerminals (c :: rest) =
      (t.shape.length? (c :: rest)).map (t.kind, ·) := by
  rw [longestMatch?_unread hc, Wireframe.longestMatch?_of_begins ht h]

theorem longestMatch?_lineFeed :
    longestMatch? locale.regularTerminals ('\n' :: rest) = some (.lineEnd, 1) :=
  Locale.longestMatch?_of_begins (t := ⟨.lineEnd, .lineEnd⟩) (isUnread_of_isBlank (by decide))
    (by simp [Terminal.shared]) (by decide)

theorem longestMatch?_comma :
    longestMatch? locale.regularTerminals (',' :: rest) = some (.comma, 1) :=
  Locale.longestMatch?_of_begins (t := ⟨.comma, .single ','⟩) (isUnread_of_mem (by decide)).1
    (by simp [Terminal.shared]) (by decide)

theorem longestMatch?_slashes :
    longestMatch? locale.regularTerminals ('/' :: '/' :: rest) =
      some (.comment, 2 + (rest.takeWhile (!Shape.isBreak ·)).length) :=
  Locale.longestMatch?_of_begins (t := ⟨.comment, .comment⟩) (isUnread_of_mem (by decide)).1
    (by simp [Terminal.shared]) (by decide)

theorem longestMatch?_quotationMark {c : Char} (hc : Shape.isQuotationMark c) :
    longestMatch? locale.regularTerminals (c :: rest) =
      (Shape.quotationLength? (c :: rest)).map (TokenKind.quotation, ·) := by
  have hmem : c = '"' ∨ c = '«' ∨ c = '»' := by
    simpa [Shape.isQuotationMark, or_assoc] using hc
  refine Locale.longestMatch?_of_begins (t := ⟨.quotation, .quotation⟩) ?_
    (by simp [Terminal.shared]) ?_
  · exact (isUnread_of_mem (by rcases hmem with rfl | rfl | rfl <;> decide)).1
  · rcases hmem with rfl | rfl | rfl <;> decide

theorem longestMatch?_angle :
    longestMatch? locale.regularTerminals ('<' :: rest) =
      (Shape.placeholderLength? ('<' :: rest)).map (TokenKind.placeholder, ·) :=
  Locale.longestMatch?_of_begins (t := ⟨.placeholder, .placeholder⟩) (isUnread_of_mem (by decide)).1
    (by simp [Terminal.shared]) (by decide)

theorem longestMatch?_digit {c : Char} (hc : c ∈ digits) :
    longestMatch? locale.regularTerminals (c :: rest) =
      (nonempty (Shape.numberLength (c :: rest))).map (TokenKind.number, ·) := by
  have hall : ∀ c ∈ digits, ∀ u ∈ Terminal.shared, u.shape.begins c → u.kind = .number := by decide
  exact Locale.longestMatch?_of_begins (t := ⟨.number, .number⟩)
    (isUnread_of_mem (List.mem_append_right _ hc)).1 (by simp [Terminal.shared]) (hall c hc)

/-- Blanks that do not begin a line end are the longest match, as many as there are. -/
theorem longestMatch?_blanks {text : List Char} (hend : Shape.lineEndLength? text = none)
    (hpos : Shape.blanksLength text ≠ 0) :
    longestMatch? locale.regularTerminals text = some (.blanks, Shape.blanksLength text) := by
  obtain ⟨c, rest, rfl⟩ := List.exists_cons_of_ne_nil (l := text) fun hnil => hpos (hnil ▸ rfl)
  have hblank : isBlank c := (Bool.and_eq_true_iff.1 (Shape.begins_of_blanksLength hpos)).1
  have hmem : (⟨.blanks, .blanks⟩ : Terminal) ∈ Terminal.shared := by simp [Terminal.shared]
  have hlength : Shape.blanks.length? (c :: rest) = some (Shape.blanksLength (c :: rest)) :=
    nonempty_eq_some_iff.2 ⟨rfl, hpos⟩
  rw [Locale.longestMatch?_unread (isUnread_of_isBlank hblank),
    longestMatch?_of_forall_ne hmem, hlength]
  · rfl
  intro u hu hne
  cases hbegins : u.shape.begins c with
  | false => exact Shape.length?_eq_none hbegins
  | true =>
    -- what else begins with a blank is a line end
    rcases Terminal.kind_of_begins hu hbegins with hkind | ⟨rfl, -⟩
    · exact absurd (Terminal.eq_of_kind_eq hu hmem (hkind.trans (leader_of_isBlank hblank))) hne
    · exact hend

/-- Spaces and tabs before a text that is not blank are a piece of their own. -/
theorem longestMatch?_gaps {blanks : List Char} (hblanks : ∀ b ∈ blanks, isGap b)
    (hne : blanks ≠ []) {c : Char} (hc : isBlank c = false) (hmark : c ≠ '?') (rest : List Char) :
    longestMatch? locale.regularTerminals (blanks ++ c :: rest) =
      some (.blanks, blanks.length) := by
  have hgap : ∀ b ∈ blanks, b = ' ' ∨ b = '\t' := fun b hb => by simpa [isGap] using hblanks b hb
  have hother : ∀ d, isBlank d = true → c ≠ d := by
    rintro d hd rfl
    rw [hd] at hc
    exact Bool.noConfusion hc
  -- the spaces and tabs are no line end, as no line break comes after them
  have htail : (blanks ++ c :: rest).takeWhile Shape.isLineTail = blanks := by
    refine takeWhile_append_stop (fun b hb => by rcases hgap b hb with rfl | rfl <;> rfl) ?_
    rintro d ⟨⟩
    simp [Shape.isLineTail, hother ' ' (by decide), hother '\t' (by decide), hmark]
  have hlineEnd : Shape.lineEndLength? (blanks ++ c :: rest) = none := by
    rw [Shape.lineEndLength?, htail, List.drop_left]
    simp [Shape.lineBreakLength?, hother '\n' (by decide), hother '\r' (by decide)]
  have hlength : Shape.blanksLength (blanks ++ c :: rest) = blanks.length := by
    rw [Shape.blanksLength, takeWhile_append_stop]
    · intro b hb
      rcases hgap b hb with rfl | rfl <;> decide
    · rintro d ⟨⟩
      simp [hc]
  rw [longestMatch?_blanks hlineEnd, hlength]
  rw [hlength]
  exact mt List.length_eq_zero_iff.1 hne

end First

/-! ## Texts in delimiters -/

section Closing

variable {closes closes' : Char → Bool} {body rest rest' : List Char}

theorem closingLength?_escape (c : Char) :
    Shape.closingLength? closes ('\\' :: c :: rest) =
      if c = '\n' then none else (Shape.closingLength? closes rest).map (2 + ·) := by
  rw [Shape.closingLength?]

theorem closingLength?_plain {c : Char} (hc : c ≠ '\\') :
    Shape.closingLength? closes (c :: rest) =
      if Shape.isBreak c then none
      else if c = '"' then (if closes c then some 1 else none)
      else
        match Shape.closingLength? closes rest with
        | some length => some (1 + length)
        | none => if closes c then some 1 else none := by
  rw [Shape.closingLength?.eq_def]
  split
  · next h => cases h
  · next h => exact absurd (List.cons.inj h).1 hc
  · next h => exact absurd (List.cons.inj h).1 hc
  · next h =>
    obtain ⟨rfl, rfl⟩ := List.cons.inj h
    rfl

theorem closingLength?_pos {text : List Char} {n : Nat}
    (h : Shape.closingLength? closes text = some n) : 0 < n := by
  cases text with
  | nil => cases h
  | cons c rest =>
    by_cases hc : c = '\\'
    · subst hc
      cases rest with
      | nil => cases h
      | cons c rest =>
        rw [closingLength?_escape] at h
        split at h
        · cases h
        · obtain ⟨k, -, rfl⟩ := Option.map_eq_some_iff.1 h
          omega
    · rw [closingLength?_plain hc] at h
      grind

/-- A fact about texts in which a backslash and the character after it are taken together. -/
theorem escape_induction {motive : List Char → Prop} (nil : motive []) (slash : motive ['\\'])
    (escape : ∀ c text, motive text → motive ('\\' :: c :: text))
    (plain : ∀ c text, c ≠ '\\' → motive text → motive (c :: text)) : ∀ text, motive text
  | [] => nil
  | [c] => if hc : c = '\\' then hc ▸ slash else plain c [] hc nil
  | c :: d :: text =>
    if hc : c = '\\' then hc ▸ escape d text (escape_induction nil slash escape plain text)
    else plain c (d :: text) hc (escape_induction nil slash escape plain (d :: text))

/-! The text in delimiters that comes first, character by character: `body` is that text if
something closes just at its end. -/

theorem closesAt_slash : Shape.closingLength? closes ('\\' :: rest) ≠ some 1 := by
  cases rest with
  | nil => exact nofun
  | cons c rest =>
    rw [closingLength?_escape]
    split
    · exact nofun
    · intro h
      obtain ⟨k, -, hk⟩ := Option.map_eq_some_iff.1 h
      omega

theorem closesAt_escape {c : Char} :
    Shape.closingLength? closes ('\\' :: c :: (body ++ rest)) = some ('\\' :: c :: body).length ↔
      c ≠ '\n' ∧ Shape.closingLength? closes (body ++ rest) = some body.length := by
  have hlength : ('\\' :: c :: body).length = 2 + body.length := by
    rw [List.length_cons, List.length_cons]
    omega
  rw [closingLength?_escape, hlength]
  by_cases hc : c = '\n'
  · simp [hc]
  · cases Shape.closingLength? closes (body ++ rest) <;> simp [hc]

/-- The end is what closes last: a double quote, or what nothing closes after. -/
theorem closesAt_plain {c : Char} (hc : c ≠ '\\') :
    Shape.closingLength? closes (c :: (body ++ rest)) = some (c :: body).length ↔
      Shape.isBreak c = false ∧
        (c ≠ '"' ∧ Shape.closingLength? closes (body ++ rest) = some body.length ∨
          body = [] ∧ closes c = true ∧ (c = '"' ∨ Shape.closingLength? closes rest = none)) := by
  rw [closingLength?_plain hc, List.length_cons, ← List.length_eq_zero_iff]
  -- a double quote closes at once, any other mark only if nothing closes after it
  by_cases hbreak : Shape.isBreak c
  · simp [hbreak]
  by_cases hquote : c = '"'
  · grind
  cases hlength : Shape.closingLength? closes (body ++ rest) with
  | some k =>
    have hlast : body.length = 0 → Shape.closingLength? closes rest ≠ none := by
      intro hnil
      rw [List.length_eq_zero_iff.1 hnil, List.nil_append] at hlength
      rw [hlength]
      exact Option.some_ne_none k
    grind
  | none =>
    have hlast : body.length = 0 → Shape.closingLength? closes rest = none := by
      intro hnil
      rwa [List.length_eq_zero_iff.1 hnil, List.nil_append] at hlength
    grind

/-- A text in delimiters ends where it did, if nothing after it can close it as nothing could
    before. -/
theorem closingLength?_append
    (hrest : Shape.closingLength? closes rest = none → Shape.closingLength? closes rest' = none)
    (h : Shape.closingLength? closes (body ++ rest) = some body.length) :
    Shape.closingLength? closes (body ++ rest') = some body.length := by
  induction body using escape_induction with
  | nil => exact absurd (closingLength?_pos h) (Nat.lt_irrefl 0)
  | slash => exact absurd h closesAt_slash
  | escape c body ih =>
    obtain ⟨hc, hbody⟩ := closesAt_escape.1 h
    exact closesAt_escape.2 ⟨hc, ih hbody⟩
  | plain c body hc ih =>
    obtain ⟨hbreak, ⟨hquote, hbody⟩ | ⟨hnil, hcloses, hlast⟩⟩ := (closesAt_plain hc).1 h
    · exact (closesAt_plain hc).2 ⟨hbreak, .inl ⟨hquote, ih hbody⟩⟩
    · exact (closesAt_plain hc).2 ⟨hbreak, .inr ⟨hnil, hcloses, hlast.imp_right hrest⟩⟩

/-- Texts that a delimiter closes, and that leave no backslash without the character that it
    escapes. -/
inductive Closed (closes : Char → Bool) : List Char → Prop
  | last {c : Char} : c ≠ '\\' → Shape.isBreak c = false → closes c = true → Closed closes [c]
  | escape {c : Char} {text : List Char} : c ≠ '\n' → Closed closes text →
    Closed closes ('\\' :: c :: text)
  | plain {c : Char} {text : List Char} : c ≠ '\\' → Shape.isBreak c = false → Closed closes text →
    Closed closes (c :: text)

theorem closed_of_closingLength?
    (h : Shape.closingLength? closes (body ++ rest) = some body.length) : Closed closes body := by
  induction body using escape_induction with
  | nil => exact absurd (closingLength?_pos h) (Nat.lt_irrefl 0)
  | slash => exact absurd h closesAt_slash
  | escape c body ih =>
    obtain ⟨hc, hbody⟩ := closesAt_escape.1 h
    exact .escape hc (ih hbody)
  | plain c body hc ih =>
    obtain ⟨hbreak, ⟨-, hbody⟩ | ⟨rfl, hcloses, -⟩⟩ := (closesAt_plain hc).1 h
    · exact .plain hc hbreak (ih hbody)
    · exact .last hc hbreak hcloses

namespace Closed

/-- Whether something closes after a closed text is decided there or later. -/
theorem closingLength?_append_eq_none (h : Closed closes' body)
    (hrest : Shape.closingLength? closes rest = none → Shape.closingLength? closes rest' = none)
    (hnone : Shape.closingLength? closes (body ++ rest) = none) :
    Shape.closingLength? closes (body ++ rest') = none := by
  induction h with
  | last hc =>
    rw [List.singleton_append, closingLength?_plain hc] at hnone ⊢
    grind
  | escape hc _ ih =>
    rw [List.cons_append, List.cons_append, closingLength?_escape, if_neg hc] at hnone ⊢
    rw [ih (Option.map_eq_none_iff.1 hnone)]
    rfl
  | plain hc _ _ ih =>
    rw [List.cons_append, closingLength?_plain hc] at hnone ⊢
    grind

theorem exists_last (h : Closed closes body) : ∃ c, body.getLast? = some c ∧ closes c = true := by
  induction h with
  | last _ _ hcloses => exact ⟨_, rfl, hcloses⟩
  | escape _ _ ih =>
    obtain ⟨c, hc, hcloses⟩ := ih
    exact ⟨c, by rw [List.getLast?_cons_cons, List.getLast?_cons, hc]; rfl, hcloses⟩
  | plain _ _ _ ih =>
    obtain ⟨c, hc, hcloses⟩ := ih
    exact ⟨c, by rw [List.getLast?_cons, hc]; rfl, hcloses⟩

end Closed

/-- Characters that neither close nor escape nor end a line are passed over. -/
theorem closingLength?_append_plain (h : ∀ c ∈ body, c ≠ '\\' ∧ Shape.isBreak c = false ∧ c ≠ '"' ∧
    closes c = false) :
    Shape.closingLength? closes (body ++ rest) =
      (Shape.closingLength? closes rest).map (body.length + ·) := by
  induction body with
  | nil => simp
  | cons c body ih =>
    obtain ⟨⟨hslash, hbreak, hquote, hcloses⟩, hbody⟩ := List.forall_mem_cons.1 h
    rw [List.cons_append, closingLength?_plain hslash, ih hbody, hbreak, hcloses]
    cases Shape.closingLength? closes rest with
    | none => simp [hquote]
    | some n => simp [hquote, Nat.add_comm, Nat.add_assoc]

/-- Characters that neither close nor escape nor end a line do not matter. -/
theorem closingLength?_append_neutral
    (h : ∀ c ∈ body, c ≠ '\\' ∧ Shape.isBreak c = false ∧ c ≠ '"' ∧ closes c = false) :
    Shape.closingLength? closes (body ++ rest) = none ↔
      Shape.closingLength? closes rest = none := by
  rw [closingLength?_append_plain h, Option.map_eq_none_iff]

end Closing

end Wireframe
