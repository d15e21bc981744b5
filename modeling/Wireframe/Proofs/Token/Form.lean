import Wireframe.Proofs.Token.Keyword

/-!
# Forms of the dictionary and the words that spell them

What it means that a word spells a form of the dictionary, said without marks: letter by letter, up
to case and to the letters that are interchanged, and with a run of spaces and tabs for each space
(`Dictionary.SpellsForm`). The forms of both dictionaries are read off a text exactly where they are
spelled (`Locale.spelledLength?_iff`).
-/

namespace Wireframe

open Text

namespace Dictionary

/-- The forms of what a kind of token means; only words have any. -/
def formsOf (d : Dictionary) : TokenKind → List String
  | .keyword k => d.keywords k
  | .numeral n => d.numerals n
  | _ => []

/-- A character may be written for a letter of a form: it is the same up to case as the letter, or
    as a letter that is interchanged with it. -/
def StandsFor (d : Dictionary) (letter c : Char) : Prop :=
  fold c = fold letter ∨
    ∃ group ∈ d.interchangeable, letter ∈ group ∧ ∃ other ∈ group, fold c = fold other

/-- A form, and a word that spells it. -/
inductive SpellsForm (d : Dictionary) : List Char → List Char → Prop
  | nil : SpellsForm d [] []
  | letter {l c : Char} {form word : List Char} : l ≠ ' ' → d.StandsFor l c →
    SpellsForm d form word → SpellsForm d (l :: form) (c :: word)
  | space {blanks form word : List Char} : blanks ≠ [] → (∀ b ∈ blanks, b = ' ' ∨ b = '\t') →
    SpellsForm d form word → SpellsForm d (' ' :: form) (blanks ++ word)

/-- A word spells one of the forms of a kind of token. -/
def SpellsWord (d : Dictionary) (kind : TokenKind) (word : List Char) : Prop :=
  ∃ form ∈ d.formsOf kind, d.SpellsForm form.toList word

/-- A form spells itself. -/
theorem SpellsForm.refl (d : Dictionary) (form : List Char) : d.SpellsForm form form := by
  induction form with
  | nil => exact .nil
  | cons c form ih =>
    by_cases hc : c = ' '
    · subst hc
      exact .space (List.cons_ne_nil _ []) (by simp) ih
    · exact .letter hc (.inl rfl) ih

theorem spellsWord_of_mem {d : Dictionary} {kind : TokenKind} {form : String}
    (h : form ∈ d.formsOf kind) : d.SpellsWord kind form.toList :=
  ⟨form, h, .refl d form.toList⟩

/-- What is read where a form has the given character. -/
def markOf (d : Dictionary) (c : Char) : Mark :=
  if c = ' ' then .gap else d.mark c

variable {d : Dictionary}

theorem mark_ne_gap (l : Char) : d.mark l ≠ .gap := by
  rw [mark]
  split <;> exact nofun

theorem markOf_eq_gap_iff {l : Char} : d.markOf l = .gap ↔ l = ' ' := by
  rw [markOf]
  split
  · next h => exact iff_of_true rfl h
  · next h => exact iff_of_false (mark_ne_gap l) h

theorem sameLetter_iff {a b : Char} : sameLetter a b ↔ fold b = fold a := by
  rw [sameLetter, Bool.or_eq_true, beq_iff_eq, beq_iff_eq]
  refine ⟨?_, fun h => .inr h.symm⟩
  rintro (rfl | h)
  · rfl
  · exact h.symm

/-- Where no letter is in two groups, the mark of a letter reads the characters that may be written
    for it. -/
theorem reads_mark_iff (hgroups : ∀ g ∈ d.interchangeable, ∀ g' ∈ d.interchangeable, g = g')
    {l c : Char} : (d.mark l).reads c ↔ d.StandsFor l c := by
  rw [mark, StandsFor]
  split
  · next group hfound =>
    have hmem := List.mem_of_find?_eq_some hfound
    have hl : l ∈ group :=
      List.contains_iff_mem.1 (List.find?_some (p := fun g : List Char => g.contains l) hfound)
    simp only [Mark.reads, List.any_eq_true, sameLetter_iff]
    constructor
    · rintro ⟨other, hother, h⟩
      exact .inr ⟨group, hmem, hl, other, hother, h⟩
    · rintro (h | ⟨group', hmem', -, other, hother, h⟩)
      · exact ⟨l, hl, h⟩
      · exact ⟨other, hgroups _ hmem _ hmem' ▸ hother, h⟩
  · next hnone =>
    rw [Mark.reads, sameLetter_iff]
    refine ⟨.inl, ?_⟩
    rintro (h | ⟨group, hmem, hl, -⟩)
    · exact h
    · exact absurd (List.contains_iff_mem.2 hl) (List.find?_eq_none.1 hnone group hmem)

theorem SpellsForm.exists_spelling
    (hgroups : ∀ g ∈ d.interchangeable, ∀ g' ∈ d.interchangeable, g = g')
    {form word : List Char} (hform : Spaced (form.map d.markOf)) (h : d.SpellsForm form word) :
    ∃ squeezed, Spelling (form.map d.markOf) word squeezed := by
  induction h with
  | nil => exact ⟨[], .nil⟩
  | @letter l c form word hl hc _ ih =>
    obtain ⟨squeezed, ih⟩ := ih hform.tail
    have hmark : d.markOf l = d.mark l := if_neg hl
    have hreads : (d.markOf l).reads c := hmark ▸ (reads_mark_iff hgroups).2 hc
    exact ⟨c :: squeezed,
      .letter hreads (Mark.isBlank_of_reads (hform.plain _ List.mem_cons_self) hreads) ih⟩
  | @space blanks form word hne hblanks htail ih =>
    have hgap : d.markOf ' ' = .gap := markOf_eq_gap_iff.2 rfl
    rw [List.map_cons, hgap] at hform ⊢
    obtain ⟨squeezed, hword⟩ := ih hform.tail
    -- a gap is between letters, so a letter comes after these blanks
    obtain ⟨m, marks, hmarks, hm⟩ := hform.exists_cons
    rw [hmarks] at hword ⊢
    cases hword with
    | gap => exact absurd rfl hm
    | letter hreads hblank hword =>
      refine ⟨_, .gap hne (fun b hb => ?_) hblank (.letter hreads hblank hword)⟩
      rcases hblanks b hb with rfl | rfl <;> rfl

theorem spellsForm_of_spelling (hgroups : ∀ g ∈ d.interchangeable, ∀ g' ∈ d.interchangeable, g = g')
    {form word squeezed : List Char} (hform : Spaced (form.map d.markOf))
    (h : Spelling (form.map d.markOf) word squeezed) : d.SpellsForm form word := by
  generalize hmarks : form.map d.markOf = marks at h
  induction h generalizing form with
  | nil => rw [List.map_eq_nil_iff.1 hmarks]; exact .nil
  | letter hreads _ _ ih =>
    obtain ⟨l, form, rfl, rfl, htail⟩ := List.map_eq_cons_iff.1 hmarks
    have hl : l ≠ ' ' := by
      rintro rfl
      exact Bool.noConfusion hreads
    rw [show d.markOf l = d.mark l from if_neg hl] at hreads
    exact .letter hl ((reads_mark_iff hgroups).1 hreads) (ih hform.tail htail)
  | gap hne hblanks _ _ ih =>
    obtain ⟨l, form, rfl, hl, htail⟩ := List.map_eq_cons_iff.1 hmarks
    obtain rfl := markOf_eq_gap_iff.1 hl
    refine .space hne (fun b hb => ?_) (ih hform.tail htail)
    simpa [isGap] using hblanks b hb

/-- A word spells a form exactly if the marks of the form spell it. -/
theorem spellsForm_iff (hgroups : ∀ g ∈ d.interchangeable, ∀ g' ∈ d.interchangeable, g = g')
    {form word : List Char} (hform : Spaced (form.map d.markOf)) :
    d.SpellsForm form word ↔ ∃ squeezed, Spelling (form.map d.markOf) word squeezed :=
  ⟨SpellsForm.exists_spelling hgroups hform, fun ⟨_, h⟩ => spellsForm_of_spelling hgroups hform h⟩

end Dictionary

/-! ## Forms in a text -/

theorem mem_insertForm {form other : String} {forms : List String} :
    form ∈ insertForm other forms ↔ form = other ∨ form ∈ forms := by
  induction forms with
  | nil => exact List.mem_cons
  | cons next forms ih =>
    rw [insertForm]
    split
    · exact List.mem_cons
    · rw [List.mem_cons, ih, List.mem_cons, or_left_comm]

/-- Sorting forms by their length loses and adds none. -/
theorem mem_longestFirst {form : String} {forms : List String} :
    form ∈ longestFirst forms ↔ form ∈ forms := by
  induction forms with
  | nil => exact Iff.rfl
  | cons other forms ih =>
    rw [longestFirst, List.foldr_cons, ← longestFirst, mem_insertForm, ih, List.mem_cons]

namespace Locale

/-- The terminal for a word of a locale. -/
def wordTerminal (locale : Locale) (kind : TokenKind) : Terminal :=
  ⟨kind, locale.dictionary.wordShape (locale.dictionary.formsOf kind)⟩

variable {locale : Locale} {kind : TokenKind}

theorem wordTerminal_mem (hkind : kind.isWord) :
    locale.wordTerminal kind ∈ locale.wordTerminals := by
  cases kind with
  | keyword k =>
    refine List.mem_append_left _ (List.mem_map.2 ⟨k, ?_, rfl⟩)
    cases k <;> decide
  | numeral n =>
    refine List.mem_append_right _ (List.mem_map.2 ⟨n, ?_, rfl⟩)
    cases n <;> decide
  | _ => exact Bool.noConfusion hkind

theorem mem_forms_wordTerminal {f : WordForm} : f ∈ (locale.wordTerminal kind).forms ↔
    ∃ form ∈ locale.dictionary.formsOf kind, locale.dictionary.wordForm form = f := by
  change f ∈ (longestFirst _).map _ ↔ _
  simp only [List.mem_map, mem_longestFirst]

/-- No letter is in two groups of letters that are interchanged. -/
theorem interchangeable_eq (locale : Locale) : ∀ g ∈ locale.dictionary.interchangeable,
    ∀ g' ∈ locale.dictionary.interchangeable, g = g' := by
  cases locale <;> decide

theorem marks_words (locale : Locale) :
    (∀ k ∈ Keyword.all, ∀ form ∈ locale.dictionary.keywords k,
      locale.dictionary.marks form.toList = form.toList.map locale.dictionary.markOf) ∧
    ∀ n ∈ Numeral.all, ∀ form ∈ locale.dictionary.numerals n,
      locale.dictionary.marks form.toList = form.toList.map locale.dictionary.markOf := by
  cases locale <;> decide +kernel

/-- The forms of both dictionaries are read character by character. -/
theorem marks_form {form : String} (h : form ∈ locale.dictionary.formsOf kind) :
    locale.dictionary.marks form.toList = form.toList.map locale.dictionary.markOf := by
  cases kind with
  | keyword k => exact (locale.marks_words.1 k (by cases k <;> decide)) form h
  | numeral n => exact (locale.marks_words.2 n (by cases n <;> decide)) form h
  | _ => exact absurd h List.not_mem_nil

theorem wordForm_mem {form : String} (h : form ∈ locale.dictionary.formsOf kind) :
    locale.dictionary.wordForm form ∈ locale.forms := by
  have hkind : kind.isWord := by
    cases kind <;> first | rfl | exact absurd h List.not_mem_nil
  exact mem_forms (wordTerminal_mem hkind) (mem_forms_wordTerminal.2 ⟨form, h, rfl⟩)

theorem spaced_marks {form : String} (h : form ∈ locale.dictionary.formsOf kind) :
    Spaced (locale.dictionary.marks form.toList) :=
  WordForm.spaced (isOrderly_of_mem (wordForm_mem h))

/-- A word spells a form exactly if the marks of the form do. -/
theorem spellsForm_iff_spelling {form : String} {word : List Char}
    (h : form ∈ locale.dictionary.formsOf kind) : locale.dictionary.SpellsForm form.toList word ↔
      ∃ squeezed, Spelling (locale.dictionary.marks form.toList) word squeezed := by
  have hspaced := spaced_marks h
  rw [marks_form h] at hspaced ⊢
  exact Dictionary.spellsForm_iff locale.interchangeable_eq hspaced

/-- What spells a form of a kind is spelled by a form of the terminal of that kind. -/
theorem exists_spelling {word : List Char} (h : locale.dictionary.SpellsWord kind word) :
    kind.isWord ∧ ∃ f ∈ (locale.wordTerminal kind).forms, ∃ squeezed,
      Spelling f.marks word squeezed := by
  obtain ⟨form, hform, hword⟩ := h
  refine ⟨?_, _, mem_forms_wordTerminal.2 ⟨form, hform, rfl⟩,
    (spellsForm_iff_spelling hform).1 hword⟩
  cases kind <;> first | rfl | exact absurd hform List.not_mem_nil

/-- A word has no characters but letters, spaces, tabs and colons. -/
theorem not_unread_of_spellsWord {word : List Char} (h : locale.dictionary.SpellsWord kind word) :
    ∀ c ∈ word, isGap c = true ∨ ¬IsUnread c := by
  obtain ⟨hkind, f, hf, squeezed, hspelling⟩ := exists_spelling h
  have hmem := mem_forms (wordTerminal_mem hkind) hf
  exact hspelling.not_unread (WordForm.spaced (isOrderly_of_mem hmem)).plain

/-- A word begins with a letter. -/
theorem exists_cons_of_spellsWord {word : List Char} (h : locale.dictionary.SpellsWord kind word) :
    ∃ c more, word = c :: more ∧ isLetter c := by
  obtain ⟨hkind, f, hf, squeezed, hspelling⟩ := exists_spelling h
  obtain ⟨m, marks, hmarks, hgap, hletter⟩ :=
    WordForm.exists_cons (isOrderly_of_mem (mem_forms (wordTerminal_mem hkind) hf))
  rw [hmarks] at hspelling
  cases hspelling with
  | gap => exact absurd rfl hgap
  | letter hreads => exact ⟨_, _, rfl, Mark.isLetter_of_isLetterMark hletter hreads⟩

/-- A form is read off the front of a text exactly where a word spells it. -/
theorem spelledLength?_iff {form : String} {text : List Char} {n : Nat}
    (h : form ∈ locale.dictionary.formsOf kind) :
    spelledLength? (locale.dictionary.marks form.toList) text = some n ↔
      ∃ word rest, text = word ++ rest ∧ locale.dictionary.SpellsForm form.toList word ∧
        word.length = n := by
  constructor
  · intro hlength
    obtain ⟨word, squeezed, rest, rfl, hword, rfl⟩ :=
      Spelling.exists_of_spelledLength? (spaced_marks h) hlength
    exact ⟨word, rest, rfl, (spellsForm_iff_spelling h).2 ⟨squeezed, hword⟩, rfl⟩
  · rintro ⟨word, rest, rfl, hword, rfl⟩
    obtain ⟨squeezed, hword⟩ := (spellsForm_iff_spelling h).1 hword
    exact hword.length_eq rest

end Locale

end Wireframe
