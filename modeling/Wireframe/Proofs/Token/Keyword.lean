import Wireframe.Proofs.Token.First

/-!
# Keywords read back

A word of a locale that is written with single spaces is still the longest match at its place,
unless a longer form goes on into what follows it. No form goes on into what no mark reads
(`Locale.formLength?_eq_none_of_unread`). Only a few words are the beginning of a longer form, and
none of them is so before a word that can follow it in a row
(`Locale.formLength?_eq_none_of_follows`).
-/

namespace Wireframe

open Text

/-! ## Characters that are no letters -/

theorem ne_of_isLetter {c d : Char} (h : isLetter c) (hd : isLetter d = false) : c ≠ d := by
  rintro rfl
  rw [hd] at h
  exact Bool.noConfusion h

/-- Nothing but words begins with a letter. -/
theorem shared_eq_none {c : Char} (hc : isLetter c) (rest : List Char) :
    ∀ t ∈ Terminal.shared, t.shape.length? (c :: rest) = none :=
  fun _ ht => Shape.length?_eq_none (Bool.eq_false_iff.2 fun hbegins =>
    ne_of_isLetter hc (Terminal.isLetter_of_begins ht hbegins) rfl)

/-! ## Marks of the same text -/

namespace Mark

/-- Whether two marks can stand for the same character. -/
def meets (m m' : Mark) : Bool :=
  m = .gap && m' = .gap || m.letters.any (m'.letters.contains ·)

theorem meets_of_reads {m m' : Mark} {c : Char} (hm : m.isPlain) (hm' : m'.isPlain) (h : m.reads c)
    (h' : m'.reads c) : m.meets m' :=
  Bool.or_eq_true_iff.2 (.inr (List.any_eq_true.2
    ⟨fold c, (reads_iff hm).1 h, List.contains_iff_mem.2 ((reads_iff hm').1 h')⟩))

end Mark

/-- Whether two lists of marks can stand for the same text, as far as both of them go. -/
def agree : List Mark → List Mark → Bool
  | m :: marks, m' :: marks' => m.meets m' && agree marks marks'
  | _, _ => true

theorem agree_append {marks marks' : List Mark} (h : agree marks marks')
    (hlength : marks'.length = marks.length) (more : List Mark) : agree marks (marks' ++ more) := by
  induction marks generalizing marks' with
  | nil => cases marks' ++ more <;> rfl
  | cons m marks ih =>
    cases marks' with
    | nil => cases hlength
    | cons m' marks' =>
      obtain ⟨hm, hrest⟩ := Bool.and_eq_true_iff.1 h
      exact Bool.and_eq_true_iff.2 ⟨hm, ih hrest (Nat.succ.inj hlength)⟩

namespace Spelling

variable {marks marks' : List Mark} {text squeezed text' squeezed' : List Char}

/-- A text, a space and a word are spelled by the marks of both with a gap between them. -/
theorem append_gap {m : Mark} (h : Spelling marks text squeezed) (hm : m ≠ .gap)
    (h' : Spelling (m :: marks') text' squeezed') :
    Spelling (marks ++ .gap :: m :: marks') (text ++ ' ' :: text')
      (squeezed ++ ' ' :: squeezed') := by
  cases h' with
  | gap => exact absurd rfl hm
  | letter hreads' hblank' h' =>
    induction h with
    | nil =>
      exact .space hblank' (.letter hreads' hblank' h')
    | letter hreads hblank _ ih => exact .letter hreads hblank ih
    | gap hne hblanks hblank _ ih =>
      rw [List.append_assoc]
      exact .gap hne hblanks hblank ih

/-- The marks of a text and those of its beginning agree, and the next mark is a gap or
    reads the next character. -/
theorem agree_of_append (h : Spelling marks' text' squeezed') (hplain' : ∀ m ∈ marks', m.isPlain)
    {rest : List Char} (hmarks : Spelling marks text (squeezed' ++ rest))
    (hplain : ∀ m ∈ marks, m.isPlain) :
    agree marks marks' ∧ ∀ c rest', rest = c :: rest' →
      ∃ m, marks[marks'.length]? = some m ∧ (m = .gap ∨ m.reads c) := by
  induction h generalizing marks text with
  | nil =>
    refine ⟨by cases marks <;> rfl, ?_⟩
    rintro c rest' rfl
    cases hmarks with
    | letter hreads => exact ⟨_, rfl, .inr hreads⟩
    | gap => exact ⟨_, rfl, .inl rfl⟩
  | @letter m' c marks' text' squeezed' hreads' hblank' h ih =>
    obtain ⟨hm', hplain'⟩ := List.forall_mem_cons.1 hplain'
    cases hmarks with
    | letter hreads hblank hmarks =>
      obtain ⟨hm, hplain⟩ := List.forall_mem_cons.1 hplain
      obtain ⟨hagree, hnext⟩ := ih hplain' hmarks hplain
      exact ⟨Bool.and_eq_true_iff.2 ⟨Mark.meets_of_reads hm hm' hreads hreads', hagree⟩, hnext⟩
    | gap => exact absurd hblank' (by decide)
  | @gap blanks c marks' text' squeezed' hne hblanks hblank h ih =>
    obtain ⟨-, hplain'⟩ := List.forall_mem_cons.1 hplain'
    cases hmarks with
    | letter _ hblank => exact absurd hblank (by decide)
    | gap _ _ _ hmarks =>
      obtain ⟨-, hplain⟩ := List.forall_mem_cons.1 hplain
      exact ih hplain' hmarks hplain

/-- Two ways to mark the same words agree, whatever marks come after one of them. -/
theorem agree_of_front {front back : List Mark} (h : Spelling marks text squeezed)
    (hplain : ∀ m ∈ marks, m.isPlain) (hfront : Spelling front text' squeezed)
    (hlength : front.length = marks.length) (hspaced : Spaced (front ++ back)) :
    agree marks (front ++ back) := by
  have hfrontPlain : ∀ m ∈ front, m.isPlain := fun m hm =>
    hspaced.plain m (List.mem_append_left _ hm)
  have hself : Spelling marks text (squeezed ++ []) := by rwa [List.append_nil]
  exact agree_append (hfront.agree_of_append hfrontPlain hself hplain).1 hlength back

end Spelling

/-! ## Keywords with single spaces -/

/-- Whether a kind of token is a word. -/
def TokenKind.isWord : TokenKind → Bool
  | .keyword _ | .numeral _ => true
  | _ => false

namespace Locale

variable {locale : Locale}

/-- No form matches more of a text than the longest match. -/
theorem formLength?_le_longest {text : List Char} {kind : TokenKind} {n m : Nat}
    (h : longestMatch? locale.regularTerminals text = some (kind, n)) {g : WordForm}
    (hg : g ∈ locale.forms) (hm : Shape.formLength? g text = some m) : m ≤ n := by
  obtain ⟨t, ht, hg⟩ := List.mem_flatMap.1 hg
  cases hlength : t.shape.length? text with
  | none =>
    rw [(length?_eq_none_iff ht).1 hlength g hg] at hm
    cases hm
  | some k =>
    exact Nat.le_trans (formLength?_le ht hlength hg hm)
      ((longestMatch?_eq_some h).2 t (mem_regularTerminals.2 (.inr ht)) k hlength)

/-- A word at the front of a text is spelled by one of its forms, and begins with a letter. -/
theorem exists_form {kind : TokenKind} (hkind : kind.isWord) {text rest : List Char}
    (h : longestMatch? locale.regularTerminals (text ++ rest) = some (kind, text.length)) :
    ∃ t ∈ locale.wordTerminals, ∃ f ∈ t.forms, t.kind = kind ∧
      Spelling f.marks text (squeeze text) ∧
      Shape.formLength? f (text ++ rest) = some text.length ∧
      ∃ c front, text = c :: front ∧ isLetter c = true ∧ isBlank c = false := by
  obtain ⟨⟨t, ht, rfl, hlength⟩, -⟩ := longestMatch?_eq_some h
  have hshared : ∀ t ∈ Terminal.shared, t.kind.isWord = false := by decide
  have ht : t ∈ locale.wordTerminals := by
    refine (mem_regularTerminals.1 ht).resolve_left fun ht => ?_
    rw [hshared t ht] at hkind
    exact Bool.noConfusion hkind
  obtain ⟨l, f, r, hforms, -, hf⟩ := exists_first ht hlength
  have hmem : f ∈ t.forms := hforms ▸ List.mem_append_right _ List.mem_cons_self
  have horderly := isOrderly_of_mem (mem_forms ht hmem)
  obtain ⟨spelled, squeezed, rest', htext, hspelling, hspelled⟩ := Spelling.exists_of_spelledLength?
    (WordForm.spaced horderly) (formLength?_eq_some_iff.1 hf).1
  obtain ⟨rfl, rfl⟩ := List.append_inj htext hspelled.symm
  obtain ⟨m, marks, hmarks, hgap, hletter⟩ := WordForm.exists_cons horderly
  rw [hmarks] at hspelling
  -- the first mark of a word is a letter, so it reads the first character
  cases hspelling with
  | gap => exact absurd rfl hgap
  | letter hreads hblank hspelling =>
    have hspelling := Spelling.letter hreads hblank hspelling
    refine ⟨t, ht, f, hmem, rfl, ?_, hf, _, _, rfl, Mark.isLetter_of_isLetterMark hletter hreads,
      hblank⟩
    rwa [hmarks, hspelling.squeeze_eq hblank]

end Locale

/-! ## Longer forms -/

theorem Spaced.drop {front back : List Mark} (h : Spaced (front ++ back)) : Spaced back := by
  induction front with
  | nil => exact h
  | cons m front ih => exact ih h.tail

/-- Characters that no plain mark reads. -/
def IsUnread (c : Char) : Prop :=
  isLetter c = false ∧ c ≠ ':'

theorem IsUnread.reads {c : Char} (hc : IsUnread c) {m : Mark} (hm : m.isPlain) :
    m.reads c = false := by
  cases hreads : m.reads c with
  | false => rfl
  | true =>
    rcases Mark.isLetter_or_of_reads hm hreads with ⟨-, h⟩ | h
    · rw [hc.1] at h
      exact h.symm
    · exact absurd h hc.2

/-- A word has no unread characters but spaces and tabs. -/
theorem Spelling.not_unread {marks : List Mark} {text squeezed : List Char}
    (h : Spelling marks text squeezed) (hmarks : ∀ m ∈ marks, m.isPlain) :
    ∀ c ∈ text, isGap c = true ∨ ¬IsUnread c := by
  induction h with
  | nil => exact fun _ h => absurd h List.not_mem_nil
  | letter hreads _ _ ih =>
    obtain ⟨hm, hmarks⟩ := List.forall_mem_cons.1 hmarks
    refine List.forall_mem_cons.2 ⟨.inr fun hunread => ?_, ih hmarks⟩
    rw [hunread.reads hm] at hreads
    exact Bool.noConfusion hreads
  | gap _ hblanks _ _ ih =>
    obtain ⟨-, hmarks⟩ := List.forall_mem_cons.1 hmarks
    exact List.forall_mem_append.2 ⟨fun b hb => .inl (hblanks b hb), ih hmarks⟩

/-- Marks without gaps go no further than an unread character. -/
theorem spelledLength?_append_unread {marks : List Mark} (hmarks : Spaced marks)
    (hgap : Mark.gap ∉ marks) {rest : List Char} (hrest : ∀ c ∈ rest.head?, IsUnread c)
    (text : List Char) : spelledLength? marks (text ++ rest) = spelledLength? marks text ∧
      ∀ n, spelledLength? marks text = some n → n ≤ text.length := by
  induction marks generalizing text with
  | nil => exact ⟨rfl, fun n hn => Option.some.inj hn ▸ Nat.zero_le _⟩
  | cons m marks ih =>
    have hm : m ≠ .gap := fun h => hgap (h ▸ List.mem_cons_self)
    cases text with
    | nil =>
      rw [spelledLength?_nil (List.cons_ne_nil _ _)]
      refine ⟨?_, fun n hn => nomatch hn⟩
      cases rest with
      | nil => exact spelledLength?_nil (List.cons_ne_nil _ _)
      | cons c rest =>
        exact spelledLength?_cons_none hm
          ((hrest c rfl).reads (hmarks.plain m List.mem_cons_self))
    | cons c text =>
      -- without gaps every mark reads exactly one character
      cases hreads : m.reads c with
      | false =>
        rw [List.cons_append, spelledLength?_cons_none hm hreads,
          spelledLength?_cons_none hm hreads]
        exact ⟨rfl, fun n hn => nomatch hn⟩
      | true =>
        obtain ⟨heq, hle⟩ := ih hmarks.tail (fun h => hgap (List.mem_cons_of_mem _ h)) text
        rw [List.cons_append, spelledLength?_cons hreads, spelledLength?_cons hreads, heq]
        refine ⟨rfl, fun n hn => ?_⟩
        obtain ⟨k, hk, rfl⟩ := Option.map_eq_some_iff.1 hn
        have := hle k hk
        rw [List.length_cons]
        omega

/-- Marks go nowhere in spaces and tabs with an unread character after them. -/
theorem spelledLength?_unread {marks : List Mark} (hmarks : Spaced marks) (hne : marks ≠ [])
    {blanks rest : List Char} (hblanks : ∀ b ∈ blanks, isGap b)
    (hrest : ∀ c ∈ rest.head?, IsUnread c ∧ isGap c = false) :
    spelledLength? marks (blanks ++ rest) = none := by
  have hunread {m : Mark} {marks : List Mark} (hm : m ≠ .gap) (hplain : m.isPlain) :
      spelledLength? (m :: marks) rest = none := by
    cases rest with
    | nil => exact spelledLength?_nil (List.cons_ne_nil _ _)
    | cons c rest => exact spelledLength?_cons_none hm ((hrest c rfl).1.reads hplain)
  obtain ⟨m, marks, rfl⟩ := List.exists_cons_of_ne_nil hne
  have hplain := hmarks.plain m List.mem_cons_self
  by_cases hm : m = .gap
  · subst hm
    obtain ⟨m', marks', rfl, hm'⟩ := hmarks.exists_cons
    rw [spelledLength?, takeWhile_append_stop hblanks fun c hc => (hrest c hc).2, List.drop_left,
      hunread hm' (hmarks.tail.plain m' List.mem_cons_self)]
    exact ite_self _
  · cases blanks with
    | nil => exact hunread hm hplain
    | cons b blanks =>
      refine spelledLength?_cons_none hm (Bool.eq_false_iff.2 fun hreads => ?_)
      have := Mark.isBlank_of_reads hplain hreads
      rw [isBlank_of_isGap (hblanks b List.mem_cons_self)] at this
      cases this

/-- Marks go over a space by a gap, or nowhere. -/
theorem spelledLength?_space {marks : List Mark} (hmarks : Spaced marks) (hne : marks ≠ []) :
    (∀ rest, spelledLength? marks (' ' :: rest) = none) ∨
      ∃ marks', marks = .gap :: marks' ∧ marks' ≠ [] ∧
        ∀ rest : List Char, (∀ c ∈ rest.head?, isGap c = false) →
          spelledLength? marks (' ' :: rest) = (spelledLength? marks' rest).map (1 + ·) := by
  cases marks with
  | nil => exact absurd rfl hne
  | cons m marks =>
    by_cases hm : m = .gap
    · subst hm
      obtain ⟨m', marks', rfl, -⟩ := hmarks.exists_cons
      have hspace : ∀ b ∈ [' '], isGap b := by decide
      exact .inr ⟨_, rfl, List.cons_ne_nil _ _, fun rest hrest =>
        spelledLength?_gap (List.cons_ne_nil _ _) hspace hrest⟩
    · have hreads : m.reads ' ' = false := by
        cases hreads : m.reads ' ' with
        | false => rfl
        | true =>
          exact absurd (Mark.isBlank_of_reads (hmarks.plain m List.mem_cons_self) hreads)
            (by decide)
      exact .inl fun rest => spelledLength?_cons_none hm hreads

/-- Whether a word can stand after another in a row. -/
def TokenKind.mayFollow : TokenKind → TokenKind → Bool
  | .keyword .mobile, .keyword .page | .keyword .tablet, .keyword .page
  | .keyword .widescreen, .keyword .page | .keyword .list, .keyword .consistsOf
  | .keyword .blocks, .keyword .aligned => true
  | .keyword .aligned, .numeral _ | .keyword .aligned, .keyword .rows
  | .keyword .aligned, .keyword .columns => true
  | .numeral _, .keyword .rows | .numeral _, .keyword .columns => true
  | _, _ => false

/-- Whether a form may be found at the front of a text with the given marks. -/
def WordForm.mayMatch (f : WordForm) (text : List Mark) : Bool :=
  agree text f.marks &&
    !(f.bounded && text[f.marks.length]?.any fun m => m ≠ .gap && m.isLetterMark)

namespace Locale

/-- Whether a longer form never goes on over more than one gap, nor into a word that may follow. -/
def keepsWords (locale : Locale) : Bool :=
  locale.forms.all fun g => !g.marks.contains .gap || locale.wordTerminals.all fun t =>
    t.forms.all fun f => !(f.marks.length < g.marks.length && agree f.marks g.marks) ||
      !(g.marks.drop (f.marks.length + 1)).contains .gap && locale.wordTerminals.all fun u =>
        !t.kind.mayFollow u.kind || u.forms.all fun h =>
          !g.mayMatch (f.marks ++ .gap :: h.marks)

theorem keepsWords_eq_true (locale : Locale) : locale.keepsWords = true := by
  cases locale <;> decide +kernel

variable {locale : Locale} {t : Terminal} {f g : WordForm} {text squeezed rest : List Char}

theorem keepsWords_of_mem (hg : g ∈ locale.forms) (hgap : .gap ∈ g.marks)
    (ht : t ∈ locale.wordTerminals) (hf : f ∈ t.forms) (hlt : f.marks.length < g.marks.length)
    (hagree : agree f.marks g.marks) : .gap ∉ g.marks.drop (f.marks.length + 1) ∧
      ∀ u ∈ locale.wordTerminals, t.kind.mayFollow u.kind → ∀ h ∈ u.forms,
        g.mayMatch (f.marks ++ .gap :: h.marks) = false := by
  have := locale.keepsWords_eq_true
  simp only [keepsWords, List.all_eq_true, Bool.or_eq_true, Bool.not_eq_true', Bool.and_eq_true,
    List.contains_eq_mem, decide_eq_false_iff_not] at this
  have hkept := ((this g hg).resolve_left fun h => h hgap) t ht f hf
  have hkept := hkept.resolve_left (by simp [hlt, hagree])
  refine ⟨hkept.1, fun u hu hfollow h hh => ?_⟩
  have := (hkept.2 u hu).resolve_left (by simp [hfollow])
  exact this h hh

/-- Where a longer form matches is decided by what follows the text of a shorter one: nowhere, or
    where the rest of its marks go on. -/
theorem spelledLength?_longer (hf : f ∈ locale.forms) (hg : g ∈ locale.forms)
    (hspelling : Spelling f.marks text squeezed) (hlt : f.marks.length < g.marks.length) :
    (∀ rest, spelledLength? g.marks (text ++ rest) = none) ∨
      ∃ front back, g.marks = front ++ back ∧ front.length = f.marks.length ∧ back ≠ [] ∧
        Spaced back ∧ agree f.marks g.marks ∧ ∀ rest, spelledLength? g.marks (text ++ rest) =
          (spelledLength? back rest).map (text.length + ·) := by
  have hgo := WordForm.spaced (isOrderly_of_mem hg)
  rcases hspelling.compare hgo with ⟨front, back, hmarks, hlength, hfront⟩ |
    ⟨_, _, _, _, _, _, _, _, _, _, hlength⟩ | hnone
  · refine .inr ⟨front, back, hmarks, hlength, ?_, Spaced.drop (hmarks ▸ hgo), ?_, fun rest => ?_⟩
    · rintro rfl
      rw [hmarks, List.append_nil, hlength] at hlt
      exact Nat.lt_irrefl _ hlt
    · have hplain := (WordForm.spaced (isOrderly_of_mem hf)).plain
      rw [hmarks] at hgo ⊢
      exact hspelling.agree_of_front hplain hfront hlength hgo
    · rw [hmarks, hfront.spelledLength?_append]
  · exact absurd hlt (Nat.lt_asymm hlength)
  · exact .inl fun rest => (hnone rest).1

theorem formLength?_eq_none (h : spelledLength? f.marks text = none) :
    Shape.formLength? f text = none := by
  rw [Shape.formLength?, h]

/-- No longer form goes on into a text that begins with an unread character, at once or after spaces
    and tabs. -/
theorem formLength?_eq_none_of_unread (hf : f ∈ locale.forms) (hg : g ∈ locale.forms)
    (hspelling : Spelling f.marks text squeezed) (hlt : f.marks.length < g.marks.length)
    {blanks : List Char} (hblanks : ∀ b ∈ blanks, isGap b)
    (hrest : ∀ c ∈ rest.head?, IsUnread c ∧ isGap c = false) :
    Shape.formLength? g (text ++ (blanks ++ rest)) = none := by
  rcases spelledLength?_longer hf hg hspelling hlt with
    hnone | ⟨front, back, -, -, hne, hback, -, hlonger⟩
  · exact formLength?_eq_none (hnone _)
  · refine formLength?_eq_none ?_
    rw [hlonger, spelledLength?_unread hback hne hblanks hrest]
    rfl

/-- Whether a longer form goes on into a text after a space is decided before an unread
    character. -/
theorem formLength?_append_unread (ht : t ∈ locale.wordTerminals) (hf : f ∈ t.forms)
    (hg : g ∈ locale.forms) (hspelling : Spelling f.marks text squeezed)
    (hlt : f.marks.length < g.marks.length) {after : List Char} (hne : after ≠ [])
    (hafter : ∀ c ∈ after.head?, isGap c = false) (hrest : ∀ c ∈ rest.head?, IsUnread c) :
    Shape.formLength? g (text ++ ' ' :: (after ++ rest)) =
      Shape.formLength? g (text ++ ' ' :: after) := by
  rcases spelledLength?_longer (mem_forms ht hf) hg hspelling hlt with
    hnone | ⟨front, back, hmarks, hlength, hne', hback, hagree, hlonger⟩
  · rw [formLength?_eq_none (hnone _), formLength?_eq_none (hnone _)]
  rcases spelledLength?_space hback hne' with hnone | ⟨back', rfl, -, hspace⟩
  · rw [formLength?_eq_none (by rw [hlonger, hnone]; rfl),
      formLength?_eq_none (by rw [hlonger, hnone]; rfl)]
  -- what follows the gap is one word, which ends before the unread character
  have hgap : .gap ∉ back' := by
    have := (keepsWords_of_mem hg (hmarks ▸ List.mem_append_right _ List.mem_cons_self) ht hf hlt
      hagree).1
    rwa [hmarks, ← hlength, ← List.drop_drop, List.drop_left] at this
  obtain ⟨hsame, hle⟩ := spelledLength?_append_unread hback.tail hgap hrest after
  have hhead : ∀ c ∈ (after ++ rest).head?, isGap c = false := by
    obtain ⟨c, after, rfl⟩ := List.exists_cons_of_ne_nil hne
    exact hafter
  have hspell : spelledLength? g.marks (text ++ ' ' :: (after ++ rest)) =
      spelledLength? g.marks (text ++ ' ' :: after) := by
    rw [hlonger, hlonger, hspace _ hafter, hspace _ hhead, hsame]
  refine Option.ext fun n => ?_
  rw [formLength?_eq_some_iff, formLength?_eq_some_iff, hspell]
  refine and_congr_right fun hn => imp_congr_right fun _ => ?_
  rw [hlonger, hspace _ hafter, Option.map_map] at hn
  obtain ⟨k, hk, rfl⟩ := Option.map_eq_some_iff.1 hn
  have hdrop : ∀ after, (text ++ ' ' :: after).drop (text.length + (1 + k)) = after.drop k := by
    intro after
    rw [← List.drop_drop, List.drop_left, ← List.drop_drop]
    rfl
  rw [Function.comp, hdrop, hdrop, List.drop_append_of_le_length (hle k hk)]
  cases after.drop k with
  | cons c more => rfl
  | nil =>
    refine iff_of_true ?_ rfl
    cases rest with
    | nil => rfl
    | cons c rest => exact (hrest c rfl).1

/-- A form that matches in a text with given marks may do so. -/
theorem mayMatch_of_formLength? {marks : List Mark} (hmarks : Spelling marks text squeezed)
    (hplain : ∀ m ∈ marks, m.isPlain) (hgo : Spaced g.marks) {n : Nat}
    (h : Shape.formLength? g (text ++ rest) = some n) : g.mayMatch marks = true := by
  obtain ⟨hspelled, hnext⟩ := formLength?_eq_some_iff.1 h
  rw [WordForm.mayMatch, Bool.and_eq_true, Bool.not_eq_true']
  rcases hmarks.compare hgo with ⟨front, back, hsplit, hlength, hfront⟩ |
    ⟨t, t', c, c', u, u', htext, htext', ht, hc, -⟩ | hnone
  · refine ⟨?_, ?_⟩
    · rw [hsplit] at hgo ⊢
      exact hmarks.agree_of_front hplain hfront hlength hgo
    · rw [List.getElem?_eq_none (by rw [hsplit, List.length_append]; omega), Option.any_none,
        Bool.and_false]
  · rw [htext'] at hmarks
    obtain ⟨hagree, hmark⟩ := ht.agree_of_append hgo.plain hmarks hplain
    refine ⟨hagree, ?_⟩
    obtain ⟨m, hm, hreads⟩ := hmark c' u' rfl
    rw [hm, Option.any_some]
    -- a bounded form does not match right before a letter
    cases hbounded : g.bounded with
    | false => rfl
    | true =>
      rcases hreads with rfl | hreads
      · rfl
      · cases hletter : m.isLetterMark with
        | false => simp
        | true =>
          have hletter := hc.trans (Mark.isLetter_of_isLetterMark hletter hreads)
          have := hnext hbounded
          rw [htext, List.append_assoc, ht.length_eq] at hspelled
          obtain rfl := Option.some.inj hspelled
          rw [htext, List.append_assoc, List.drop_left, List.cons_append, List.head?_cons,
            Option.any_some, hletter] at this
          exact Bool.noConfusion this
  · rw [(hnone rest).1] at hspelled
    cases hspelled

/-- No longer form goes on into a word that may follow. -/
theorem formLength?_eq_none_of_follows {u : Terminal} {h : WordForm}
    {word squeezed' : List Char} (ht : t ∈ locale.wordTerminals)
    (hf : f ∈ t.forms) (hg : g ∈ locale.forms)
    (hspelling : Spelling f.marks text squeezed) (hlt : f.marks.length < g.marks.length)
    (hu : u ∈ locale.wordTerminals) (hh : h ∈ u.forms) (hfollow : t.kind.mayFollow u.kind)
    (hword : Spelling h.marks word squeezed') (rest : List Char) :
    Shape.formLength? g (text ++ ' ' :: (word ++ rest)) = none := by
  cases hmatch : Shape.formLength? g (text ++ ' ' :: (word ++ rest)) with
  | none => rfl
  | some n =>
    have hspelled := (formLength?_eq_some_iff.1 hmatch).1
    rcases spelledLength?_longer (mem_forms ht hf) hg hspelling hlt with
      hnone | ⟨front, back, hmarks, -, hne, hback, hagree, hlonger⟩
    · rw [hnone] at hspelled
      cases hspelled
    rcases spelledLength?_space hback hne with hnone | ⟨back', rfl, -, -⟩
    · rw [hlonger, hnone] at hspelled
      cases hspelled
    obtain ⟨m, marks, hfirst, hgap, -⟩ := WordForm.exists_cons (isOrderly_of_mem (mem_forms hu hh))
    have happend : Spelling (f.marks ++ .gap :: h.marks) (text ++ ' ' :: word)
        (squeezed ++ ' ' :: squeezed') := by
      rw [hfirst] at hword ⊢
      exact hspelling.append_gap hgap hword
    have hplain : ∀ m ∈ f.marks ++ .gap :: h.marks, m.isPlain := by
      refine List.forall_mem_append.2 ⟨?_, List.forall_mem_cons.2 ⟨rfl, ?_⟩⟩
      · exact (WordForm.spaced (isOrderly_of_mem (mem_forms ht hf))).plain
      · exact (WordForm.spaced (isOrderly_of_mem (mem_forms hu hh))).plain
    have hmatch' : Shape.formLength? g (text ++ ' ' :: word ++ rest) = some n := by
      rwa [List.append_assoc]
    have hmay :=
      mayMatch_of_formLength? happend hplain (WordForm.spaced (isOrderly_of_mem hg)) hmatch'
    have hkeeps := (keepsWords_of_mem hg (hmarks ▸ List.mem_append_right _ List.mem_cons_self) ht hf
      hlt hagree).2 u hu hfollow h hh
    rw [hkeeps] at hmay
    exact Bool.noConfusion hmay

end Locale

end Wireframe
