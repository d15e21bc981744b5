import Wireframe.Proofs.Text.Trim
import Wireframe.Proofs.Token.Delimited

/-!
# Free text reads back

Free text loses the spaces at its end when it is printed. At the end of a line it still reads back,
unless it ends in a slash: a slash belongs to free text only with a character of free text after it
(`Locale.lexemeAt?_caption`).
-/

namespace Wireframe

open Text

/-! ## Runs of free text -/

/-- Texts that free text can be: a slash only before another character of free text. -/
inductive FreeRun : List Char → Prop
  | nil : FreeRun []
  | char {c : Char} {text : List Char} : Shape.isFree c → FreeRun text → FreeRun (c :: text)
  | slash {c : Char} {text : List Char} : Shape.isFree c → FreeRun text → FreeRun ('/' :: c :: text)

theorem freeTextLength_char {c : Char} (hc : c ≠ '/') (rest : List Char) :
    Shape.freeTextLength (c :: rest) =
      if Shape.isFree c then 1 + Shape.freeTextLength rest else 0 := by
  rw [Shape.freeTextLength.eq_def]
  split
  · next h => cases h
  · next h => exact absurd (List.cons.inj h).1 hc
  · next h => exact absurd (List.cons.inj h).1 hc
  · next h =>
    obtain ⟨rfl, rfl⟩ := List.cons.inj h
    rfl

theorem freeTextLength_slash (c : Char) (rest : List Char) :
    Shape.freeTextLength ('/' :: c :: rest) =
      if Shape.isFree c then 2 + Shape.freeTextLength rest else 0 := by
  rw [Shape.freeTextLength.eq_def]
  split
  · next h => cases h
  · next h => exact nomatch (List.cons.inj h).2
  · next h =>
    obtain ⟨rfl, rfl⟩ := List.cons.inj (List.cons.inj h).2
    rfl
  · next hne h => exact (hne c rest (List.cons.inj h).1.symm (List.cons.inj h).2.symm).elim

theorem ne_slash_of_isFree {c : Char} (hc : Shape.isFree c) : c ≠ '/' := by
  rintro rfl
  exact absurd hc (by decide)

namespace FreeRun

variable {text more : List Char}

/-- A run of free text is free text as a whole, whatever follows. -/
theorem freeTextLength_append (h : FreeRun text) (rest : List Char) :
    Shape.freeTextLength (text ++ rest) = text.length + Shape.freeTextLength rest := by
  induction h with
  | nil => rw [List.nil_append, List.length_nil, Nat.zero_add]
  | char hc _ ih =>
    rw [List.cons_append, freeTextLength_char (ne_slash_of_isFree hc),
      if_pos hc, ih, List.length_cons]
    omega
  | slash hc _ ih =>
    rw [List.cons_append, List.cons_append, freeTextLength_slash, if_pos hc, ih, List.length_cons,
      List.length_cons]
    omega

/-- The beginning of a run is a run, unless it ends in a slash that belongs
    to the next character. -/
theorem of_append (h : FreeRun (text ++ more))
    (hlast : text.getLast? = some '/' → ∀ c ∈ more.head?, Shape.isFree c = false) :
    FreeRun text := by
  -- by induction on the run, whose steps take one character or, at a slash, two
  generalize hall : text ++ more = all at h
  induction h generalizing text with
  | nil => exact (List.append_eq_nil_iff.1 hall).1 ▸ .nil
  | char hc _ ih =>
    cases text with
    | nil => exact .nil
    | cons d text =>
      obtain ⟨rfl, rfl⟩ := List.cons.inj hall
      refine .char hc (ih (fun h => hlast ?_) rfl)
      rw [List.getLast?_cons, h]
      rfl
  | slash hc _ ih =>
    cases text with
    | nil => exact .nil
    | cons d text =>
      obtain ⟨rfl, htail⟩ := List.cons.inj hall
      cases text with
      | nil =>
        rw [List.append_eq, List.nil_append] at htail
        rw [hlast rfl _ (htail ▸ rfl)] at hc
        exact Bool.noConfusion hc
      | cons e text =>
        obtain ⟨rfl, rfl⟩ := List.cons.inj htail
        refine .slash hc (ih (fun h => hlast ?_) rfl)
        rw [List.getLast?_cons_cons, List.getLast?_cons, h]
        rfl

theorem mem (h : FreeRun text) : ∀ c ∈ text, Shape.isFree c ∨ c = '/' := by
  induction h with
  | nil => exact fun _ h => absurd h List.not_mem_nil
  | char hc _ ih => exact List.forall_mem_cons.2 ⟨.inl hc, ih⟩
  | slash hc _ ih => exact List.forall_mem_cons.2 ⟨.inr rfl, List.forall_mem_cons.2 ⟨.inl hc, ih⟩⟩

/-- What is taken as free text is a run. -/
theorem take_freeTextLength (text : List Char) :
    FreeRun (text.take (Shape.freeTextLength text)) := by
  fun_induction Shape.freeTextLength text with
  | case1 => exact .nil
  | case2 => exact .nil
  | case3 c rest hc ih =>
    rw [Nat.add_comm]
    exact .slash hc ih
  | case4 => exact .nil
  | case5 c rest _ _ hc ih =>
    rw [Nat.add_comm]
    exact .char hc ih
  | case6 => exact .nil

end FreeRun

/-! ## Captions -/

/-- Trimmed free text: with spaces after it, it is a run, and it begins with no comma. -/
structure IsCaption (text : List Char) : Prop where
  run : ∃ n, FreeRun (text ++ List.replicate n ' ')
  first : ∃ c rest, text = c :: rest ∧ isBlank c = false ∧ c ≠ ','
  last : ∀ c ∈ text.getLast?, isBlank c = false

theorem eq_space_of_isFree {c : Char} (hc : Shape.isFree c) (hblank : isBlank c) : c = ' ' := by
  have := forall_blank (p := fun c => Shape.isFree c = true → c = ' ') (by decide) hblank
  exact this hc

theorem eq_space_of_mem {text : List Char} (h : FreeRun text) :
    ∀ c ∈ text, isBlank c → c = ' ' := by
  intro c hc hblank
  rcases h.mem c hc with hfree | rfl
  · exact eq_space_of_isFree hfree hblank
  · exact absurd hblank (by decide)

/-- A run that begins with neither a blank nor a comma is a caption and spaces after it. -/
theorem FreeRun.isCaption_trim {c : Char} {more : List Char} (h : FreeRun (c :: more))
    (hblank : isBlank c = false) (hcomma : c ≠ ',') : IsCaption (trim (c :: more)) ∧
      ∃ n, c :: more = trim (c :: more) ++ List.replicate n ' ' := by
  obtain ⟨blanks, htext, hblanks, hlast⟩ := exists_trimEnd (c :: more)
  have hspaces : blanks = List.replicate blanks.length ' ' := by
    refine List.eq_replicate_iff.2 ⟨rfl, fun b hb => ?_⟩
    exact eq_space_of_mem h b (htext ▸ List.mem_append_right _ hb) (hblanks b hb)
  rw [← trim_cons hblank] at htext hlast
  have hfirst : ∃ d rest, trim (c :: more) = d :: rest ∧ isBlank d = false ∧ d ≠ ',' := by
    cases htrim : trim (c :: more) with
    | nil =>
      rw [htrim, List.nil_append] at htext
      rw [hblanks c (htext ▸ List.mem_cons_self)] at hblank
      exact Bool.noConfusion hblank
    | cons d rest =>
      rw [htrim] at htext
      obtain ⟨rfl, -⟩ := List.cons.inj htext
      exact ⟨c, rest, rfl, hblank, hcomma⟩
  rw [hspaces] at htext
  exact ⟨⟨⟨blanks.length, htext ▸ h⟩, hfirst, hlast⟩, blanks.length, htext⟩

/-- What is taken as free text is a caption and spaces after it. -/
theorem isCaption_trim {locale : Locale} {text rest : List Char} (hne : text ≠ [])
    (hnone : longestMatch? locale.regularTerminals (text ++ rest) = none)
    (hlength : Shape.freeTextLength (text ++ rest) = text.length) :
    IsCaption (trim text) ∧ ∃ n, text = trim text ++ List.replicate n ' ' := by
  have hrun : FreeRun text := by
    have := FreeRun.take_freeTextLength (text ++ rest)
    rwa [hlength, List.take_left] at this
  have hshared : ∀ t ∈ Terminal.shared, t.shape.length? (text ++ rest) = none := fun t ht =>
    longestMatch?_eq_none_iff.1 hnone t (Locale.mem_regularTerminals.2 (.inl ht))
  obtain ⟨c, more, rfl⟩ := List.exists_cons_of_ne_nil hne
  refine hrun.isCaption_trim (Bool.eq_false_iff.2 fun hblank => ?_) ?_
  · obtain rfl := eq_space_of_mem hrun c List.mem_cons_self hblank
    have := hshared ⟨.blanks, .blanks⟩ (by simp [Terminal.shared])
    simp [Shape.length?, Shape.blanksLength, hblank, Shape.isBreak, nonempty] at this
  · rintro rfl
    have := hshared ⟨.comma, .single ','⟩ (by simp [Terminal.shared])
    cases this

/-- A sign without a digit after it is no number. -/
theorem numberLength_sign {c : Char} (hc : c ∉ digits) (rest : List Char) :
    Shape.numberLength ('-' :: c :: rest) = 0 := by
  have hwhole : Shape.wholeLength (c :: rest) = 0 := by
    by_contra hne
    obtain ⟨hge, hle⟩ := Shape.digit_of_wholeLength hne
    exact hc (mem_digits hge hle)
  exact if_pos hwhole

namespace IsCaption

variable {text rest : List Char}

/-- The second character, with which a comment or a number would go on, does not. -/
theorem exists_second {c d : Char} {more : List Char} (h : IsCaption (c :: more))
    (hd : d ∉ '/' :: digits) (rest : List Char) :
    ∃ e tail, more ++ d :: rest = e :: tail ∧ (c = '/' → e ≠ '/') ∧ e ∉ digits := by
  obtain ⟨n, hrun⟩ := h.run
  cases more with
  | nil =>
    rw [List.mem_cons, not_or] at hd
    exact ⟨d, rest, rfl, fun _ => hd.1, hd.2⟩
  | cons e more =>
    refine ⟨e, more ++ d :: rest, rfl, fun hc => ?_, fun he => ?_⟩
    · subst hc
      cases hrun with
      | char hc => exact absurd hc (by decide)
      | slash he => exact ne_slash_of_isFree he
    · have hall : ∀ e ∈ digits, ¬(Shape.isFree e = true ∨ e = '/') := by decide
      exact hall e he (hrun.mem e (List.mem_cons_of_mem _ List.mem_cons_self))

/-- Nothing but words can begin where a caption does, if no slash or digit comes after it. -/
theorem shared_eq_none (h : IsCaption text) {d : Char}
    (hd : d ∉ '/' :: digits) :
    ∀ t ∈ Terminal.shared, t.shape.length? (text ++ d :: rest) = none := by
  obtain ⟨n, hrun⟩ := h.run
  obtain ⟨c, more, rfl, hblank, hcomma⟩ := h.first
  obtain ⟨e, tail, htail, hslash, hdigit⟩ := h.exists_second hd rest
  have hfree : Shape.isFree c ∨ c = '/' := hrun.mem c List.mem_cons_self
  have hdigits : ∀ c ∈ digits, ¬(Shape.isFree c = true ∨ c = '/') := by decide
  intro t ht
  rw [List.cons_append, htail]
  cases hbegins : t.shape.begins c with
  | false => exact Shape.length?_eq_none hbegins
  | true =>
    simp only [Terminal.shared, List.mem_cons, List.not_mem_nil, or_false] at ht
    rcases ht with rfl | rfl | rfl | rfl | rfl | rfl | rfl | rfl <;>
      simp only [Shape.begins, Shape.isLineTail, Shape.isBreak, Shape.isQuotationMark,
        Bool.or_eq_true, Bool.and_eq_true, decide_eq_true_eq] at hbegins
    -- of the characters of captions, a slash can begin a comment, and a sign a number
    · rcases hbegins with ((rfl | rfl) | rfl) | rfl | rfl
      · exact absurd hblank (by decide)
      all_goals exact absurd hfree (by decide)
    · exact absurd hblank (by simp [hbegins.1])
    · subst hbegins
      have he : e ≠ '/' := hslash rfl
      simp [Shape.length?, Shape.commentLength?, he]
    · rcases hbegins with rfl | hdigit'
      · rw [Shape.length?, numberLength_sign hdigit]
        rfl
      · exact absurd hfree (hdigits c (mem_digits hdigit'.1 hdigit'.2))
    · rcases hbegins with (rfl | rfl) | rfl <;> exact absurd hfree (by decide)
    · exact absurd (hbegins ▸ hfree) (by decide)
    · exact absurd hbegins hcomma
    · exact absurd (hbegins ▸ hfree) (by decide)

end IsCaption

/-! ## Words in captions -/

namespace Locale

variable {locale : Locale} {g : WordForm} {text rest rest' : List Char} {n : Nat}

/-- A form that matches in a text matches in it whatever follows, but a letter. -/
theorem formLength?_append_congr (hg : g ∈ locale.forms)
    (h : Shape.formLength? g (text ++ rest) = some n) (hle : n ≤ text.length)
    (hrest' : rest'.head?.any isLetter = false) : Shape.formLength? g (text ++ rest') = some n := by
  obtain ⟨hspelled, hnext⟩ := formLength?_eq_some_iff.1 h
  obtain ⟨spelled, squeezed, more, htext, hspelling, rfl⟩ := Spelling.exists_of_spelledLength?
    (WordForm.spaced (isOrderly_of_mem hg)) hspelled
  obtain ⟨after, rfl⟩ : ∃ after, text = spelled ++ after := by
    refine ⟨text.drop spelled.length, ?_⟩
    have := congrArg (List.take spelled.length) htext
    rw [List.take_left, List.take_append_of_le_length hle] at this
    conv => lhs; rw [← List.take_append_drop spelled.length text, this]
  rw [List.append_assoc, List.drop_left] at hnext
  rw [List.append_assoc, formLength?_eq_some_iff, List.drop_left]
  refine ⟨hspelling.length_eq _, fun hbounded => ?_⟩
  cases after with
  | nil => exact hrest'
  | cons c after => exact hnext hbounded

/-- No form goes over an unread character that is no gap. -/
theorem formLength?_le_of_unread (hg : g ∈ locale.forms) {d : Char} (hd : IsUnread d)
    (hgap : isGap d = false) (h : Shape.formLength? g (text ++ d :: rest) = some n) :
    n ≤ text.length := by
  have hgo := WordForm.spaced (isOrderly_of_mem hg)
  obtain ⟨spelled, squeezed, more, htext, hspelling, rfl⟩ := Spelling.exists_of_spelledLength? hgo
    (formLength?_eq_some_iff.1 h).1
  refine Nat.le_of_not_lt fun hlt => ?_
  have hmem : d ∈ spelled := by
    have := congrArg (List.take spelled.length) htext
    rw [List.take_left, List.take_append, List.take_of_length_le (Nat.le_of_lt hlt)] at this
    obtain ⟨k, hk⟩ := Nat.exists_eq_succ_of_ne_zero (Nat.sub_ne_zero_of_lt hlt)
    rw [← this, hk]
    exact List.mem_append_right _ List.mem_cons_self
  rcases hspelling.not_unread hgo.plain d hmem with h | h
  · rw [hgap] at h
    exact Bool.noConfusion h
  · exact h hd

theorem longestMatch?_eq_none_iff :
    longestMatch? locale.regularTerminals text = none ↔
      (∀ t ∈ Terminal.shared, t.shape.length? text = none) ∧
        ∀ f ∈ locale.forms, Shape.formLength? f text = none := by
  rw [Wireframe.longestMatch?_eq_none_iff, regularTerminals_eq, List.forall_mem_append]
  refine and_congr_right fun _ => ⟨fun h f hf => ?_, fun h t ht => ?_⟩
  · obtain ⟨t, ht, hf⟩ := List.mem_flatMap.1 hf
    exact (length?_eq_none_iff ht).1 (h t ht) f hf
  · exact (length?_eq_none_iff ht).2 fun f hf => h f (mem_forms ht hf)

theorem lexemeAt?_of_none (h : longestMatch? locale.regularTerminals text = none) :
    lexemeAt? locale.regularTerminals text =
      (nonempty (Shape.freeTextLength text)).map (TokenKind.freeText, ·) := by
  rw [lexemeAt?, h]
  rfl

/-- At the end of a line a caption is free text, unless it ends in a slash. -/
theorem lexemeAt?_caption (h : IsCaption text)
    (hnone : longestMatch? locale.regularTerminals (text ++ rest) = none)
    (hrest : rest.head?.any isLetter = false) (more : List Char) :
    lexemeAt? locale.regularTerminals (text ++ '\n' :: more) = (nonempty
      (if text.getLast? = some '/' then text.length - 1 else text.length)).map
        (TokenKind.freeText, ·) := by
  have hbreak : IsUnread '\n' := isUnread_of_isBlank (by decide)
  -- a keyword that matched before the line break would end before it, and match before the rest too
  have hnone' : longestMatch? locale.regularTerminals (text ++ '\n' :: more) = none := by
    refine longestMatch?_eq_none_iff.2 ⟨h.shared_eq_none (by decide), fun f hf => ?_⟩
    cases hmatch : Shape.formLength? f (text ++ '\n' :: more) with
    | none => rfl
    | some n =>
      have hle := formLength?_le_of_unread hf hbreak (by decide) hmatch
      have := formLength?_append_congr hf hmatch hle hrest
      rw [(longestMatch?_eq_none_iff.1 hnone).2 f hf] at this
      cases this
  have hlength : Shape.freeTextLength (text ++ '\n' :: more) =
      if text.getLast? = some '/' then text.length - 1 else text.length := by
    obtain ⟨n, hrun⟩ := h.run
    split
    · next hlast =>
      obtain ⟨init, rfl⟩ := List.getLast?_eq_some_iff.1 hlast
      rw [List.append_assoc] at hrun ⊢
      have hinit : FreeRun init := hrun.of_append fun _ c hc => Option.some.inj hc ▸ by decide
      rw [hinit.freeTextLength_append, List.singleton_append, freeTextLength_slash,
        List.length_append]
      rfl
    · next hlast =>
      rw [(hrun.of_append fun h => absurd h hlast).freeTextLength_append,
        freeTextLength_char (by decide)]
      rfl
  rw [lexemeAt?_of_none hnone', hlength]

/-- Only where no other terminal matches is there free text. -/
theorem of_lexemeAt?_freeText (h : lexemeAt? locale.regularTerminals text = some (.freeText, n)) :
    longestMatch? locale.regularTerminals text = none ∧ Shape.freeTextLength text = n ∧ n ≠ 0 := by
  cases hmatch : longestMatch? locale.regularTerminals text with
  | none =>
    rw [lexemeAt?_of_none hmatch, nonempty] at h
    split at h
    · cases h
    · next hne =>
      obtain ⟨-, rfl⟩ := Prod.mk.inj (Option.some.inj h)
      exact ⟨rfl, rfl, hne⟩
  | some found =>
    rw [lexemeAt?, hmatch] at h
    obtain rfl := Option.some.inj h
    obtain ⟨⟨t, ht, hkind, -⟩, -⟩ := longestMatch?_eq_some hmatch
    have hshared : ∀ t ∈ Terminal.shared, t.kind ≠ .freeText := by decide
    rcases mem_regularTerminals.1 ht with ht | ht
    · exact absurd hkind (hshared t ht)
    · rcases kind_of_mem ht with ⟨k, hk⟩ | ⟨k, hk⟩ <;> rw [hk] at hkind <;> cases hkind

end Locale

end Wireframe
