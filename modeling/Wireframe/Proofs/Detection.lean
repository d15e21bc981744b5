import Wireframe.Proofs.Grammar.Fidelity
import Wireframe.Proofs.Token.Lossless

/-!
# What the detected locale is

The locale of a scene is detected in its raw text, before anything is known of comments and
keywords. Where the text can be read in a locale, there are only blank lines, a device and
comments before its first page keyword, and of these only a comment can spell a page
keyword: letters and a colon.
-/

namespace Wireframe

open Text

/-! ## Spelled page keywords -/

/-- The marks of the page keyword of a locale, for each of its forms, without the colon that comes
    last. -/
def Locale.pageMarks (locale : Locale) : List (List Mark) :=
  (longestFirst (locale.dictionary.keywords .page)).map fun form =>
    (locale.dictionary.marks form.toList).dropLast

/-- Whether marks stand for letters, one by one. -/
def areLetters (marks : List Mark) : Bool :=
  marks.all fun m => m ≠ .gap && m.isLetterMark

/-- A text that begins with a word that some marks read, and a colon after it. -/
def OpensWith (marks : List Mark) (text : List Char) : Prop :=
  ∃ word rest, text = word ++ ':' :: rest ∧ List.Forall₂ (fun m c => m.reads c) marks word

section OpensWith

variable {m : Mark} {marks : List Mark} {c : Char} {text word : List Char}

theorem reads_colon_iff : (Mark.letter ':').reads c ↔ c = ':' := by
  rw [Mark.reads_iff (by decide), Mark.letters, List.mem_singleton]
  refine ⟨eq_colon_of_fold, ?_⟩
  rintro rfl
  decide

theorem opensWith_nil : OpensWith [] text ↔ text.head? = some ':' := by
  rw [List.head?_eq_some_iff]
  constructor
  · rintro ⟨word, rest, rfl, ⟨⟩⟩
    exact ⟨rest, rfl⟩
  · rintro ⟨rest, rfl⟩
    exact ⟨[], rest, rfl, .nil⟩

theorem opensWith_cons : OpensWith (m :: marks) (c :: text) ↔ m.reads c ∧ OpensWith marks text := by
  constructor
  · rintro ⟨_, rest, htext, hword⟩
    cases hword with
    | cons hm hword =>
      obtain ⟨rfl, rfl⟩ := List.cons.inj htext
      exact ⟨hm, _, rest, rfl, hword⟩
  · rintro ⟨hm, word, rest, rfl, hword⟩
    exact ⟨c :: word, rest, rfl, .cons hm hword⟩

theorem not_opensWith_cons_nil : ¬ OpensWith (m :: marks) [] := by
  rintro ⟨_, rest, htext, hword⟩
  cases hword
  cases htext

theorem isSome_spelledLength?_iff (h : areLetters marks) :
    (spelledLength? (marks ++ [.letter ':']) text).isSome ↔ OpensWith marks text := by
  -- after the marks of the word there is the colon, which is also read as such
  induction marks generalizing text with
  | nil =>
    rw [opensWith_nil]
    cases text with
    | nil => exact iff_of_false Bool.false_ne_true nofun
    | cons c text =>
      rw [List.nil_append, List.head?_cons, Option.some.injEq, ← reads_colon_iff]
      cases hc : (Mark.letter ':').reads c with
      | true => rw [spelledLength?_cons hc]; exact iff_of_true rfl rfl
      | false => rw [spelledLength?_cons_none (m := .letter ':') (by decide) hc]; exact Iff.rfl
  | cons m marks ih =>
    rw [areLetters, List.all_cons, Bool.and_eq_true, Bool.and_eq_true, decide_eq_true_eq] at h
    cases text with
    | nil =>
      rw [List.cons_append, spelledLength?_nil (List.cons_ne_nil _ _)]
      exact iff_of_false Bool.false_ne_true not_opensWith_cons_nil
    | cons c text =>
      rw [opensWith_cons, ← ih h.2, List.cons_append]
      cases hc : m.reads c with
      | true => rw [spelledLength?_cons hc, Option.isSome_map]; simp
      | false => rw [spelledLength?_cons_none h.1.1 hc]; simp

/-- The word before the colon is made of letters. -/
theorem isLetter_of_forall₂ (h : areLetters marks)
    (hword : List.Forall₂ (fun m c => m.reads c) marks word) : ∀ c ∈ word, isLetter c := by
  induction hword with
  | nil => exact fun _ h => absurd h List.not_mem_nil
  | cons hm _ ih =>
    rw [areLetters, List.all_cons, Bool.and_eq_true, Bool.and_eq_true] at h
    exact List.forall_mem_cons.2 ⟨Mark.isLetter_of_isLetterMark h.1.2 hm, ih h.2⟩

/-- More text does not matter where the first text has a character that is no letter, or where what
    comes after it can go on neither the word nor be its colon. -/
theorem opensWith_append {more : List Char} (h : areLetters marks)
    (hmore : (∃ c ∈ text, isLetter c = false) ∨ ∀ c ∈ more.head?, isLetter c = false ∧ c ≠ ':') :
    OpensWith marks (text ++ more) ↔ OpensWith marks text := by
  constructor
  · rintro ⟨word, rest, htext, hword⟩
    have hletters := isLetter_of_forall₂ h hword
    rcases append_eq_append_cons htext with ⟨word', rfl, rfl⟩ | ⟨rest', rfl, -⟩
    · obtain ⟨hletters, hletters'⟩ := List.forall_mem_append.1 hletters
      rcases hmore with ⟨c, hc, hnot⟩ | hhead
      · rw [hletters c hc] at hnot
        cases hnot
      · cases word' with
        | nil => exact absurd rfl (hhead ':' rfl).2
        | cons c word' =>
          have := (hhead c rfl).1
          rw [hletters' c List.mem_cons_self] at this
          cases this
    · exact ⟨word, rest', rfl, hword⟩
  · rintro ⟨word, rest, rfl, hword⟩
    exact ⟨word, rest ++ more, List.append_assoc .., hword⟩

theorem OpensWith.colon_mem (h : OpensWith marks text) : ':' ∈ text := by
  obtain ⟨word, rest, rfl, -⟩ := h
  exact List.mem_append_right _ List.mem_cons_self

end OpensWith

namespace Locale

theorem marks_page (locale : Locale) : ∀ form ∈ longestFirst (locale.dictionary.keywords .page),
    locale.dictionary.marks form.toList =
        (locale.dictionary.marks form.toList).dropLast ++ [.letter ':'] ∧
      areLetters (locale.dictionary.marks form.toList).dropLast := by
  cases locale <;> decide +kernel

theorem areLetters_pageMarks (locale : Locale) : ∀ marks ∈ locale.pageMarks, areLetters marks :=
  List.forall_mem_map.2 fun form hform => (locale.marks_page form hform).2

variable {locale : Locale} {text more : List Char}

theorem opensPage_iff :
    locale.opensPage text ↔ ∃ marks ∈ locale.pageMarks, OpensWith marks text := by
  rw [opensPage, Dictionary.formAt?, List.findSome?_isSome_iff]
  rw [pageMarks]
  simp only [List.mem_map]
  constructor
  · rintro ⟨form, hform, h⟩
    obtain ⟨hmarks, hletters⟩ := locale.marks_page form hform
    rw [hmarks] at h
    exact ⟨_, ⟨form, hform, rfl⟩, (isSome_spelledLength?_iff hletters).1 h⟩
  · rintro ⟨_, ⟨form, hform, rfl⟩, h⟩
    obtain ⟨hmarks, hletters⟩ := locale.marks_page form hform
    refine ⟨form, hform, ?_⟩
    rw [hmarks]
    exact (isSome_spelledLength?_iff hletters).2 h

theorem opensPage_append (hmore : (∃ c ∈ text, isLetter c = false) ∨
    ∀ c ∈ more.head?, isLetter c = false ∧ c ≠ ':') :
    locale.opensPage (text ++ more) = locale.opensPage text := by
  rw [Bool.eq_iff_iff, opensPage_iff, opensPage_iff]
  exact exists_congr fun marks => and_congr_right fun hmarks =>
    opensWith_append (locale.areLetters_pageMarks marks hmarks) hmore

theorem opensPage_of_notMem (h : ':' ∉ text) : locale.opensPage text = false := by
  rw [Bool.eq_false_iff, Ne, opensPage_iff]
  rintro ⟨marks, -, hopens⟩
  exact h hopens.colon_mem

/-- Whether two lists of marks begin with marks that read no letter in common. -/
def startApart : List Mark → List Mark → Bool
  | m :: _, m' :: _ => !m.meets m'
  | _, _ => false

theorem startApart_pageMarks : ∀ locale ∈ all, ∀ other ∈ all, locale ≠ other →
    ∀ marks ∈ locale.pageMarks, ∀ marks' ∈ other.pageMarks, startApart marks marks' := by
  decide +kernel

theorem mem_all (locale : Locale) : locale ∈ all := by
  cases locale <;> decide

/-- No text begins with page keywords of two locales. -/
theorem opensPage_unique {other : Locale} (h : locale.opensPage text)
    (hother : other.opensPage text) : locale = other := by
  obtain ⟨marks, hmarks, hopens⟩ := opensPage_iff.1 h
  obtain ⟨marks', hmarks', hopens'⟩ := opensPage_iff.1 hother
  by_contra hne
  have hapart :=
    startApart_pageMarks locale locale.mem_all other other.mem_all hne marks hmarks marks' hmarks'
  have hletters := locale.areLetters_pageMarks marks hmarks
  have hletters' := other.areLetters_pageMarks marks' hmarks'
  rcases marks with _ | ⟨m, marks⟩
  · exact Bool.noConfusion hapart
  rcases marks' with _ | ⟨m', marks'⟩
  · exact Bool.noConfusion hapart
  rcases text with _ | ⟨c, text⟩
  · exact not_opensWith_cons_nil hopens
  have hm := (opensWith_cons.1 hopens).1
  have hm' := (opensWith_cons.1 hopens').1
  rw [areLetters, List.all_cons, Bool.and_eq_true, Bool.and_eq_true] at hletters hletters'
  -- both begin with a mark that reads the first character, which no two locales have
  have hmeets := Mark.meets_of_reads (Bool.or_eq_true_iff.2 (.inl hletters.1.2))
    (Bool.or_eq_true_iff.2 (.inl hletters'.1.2)) hm hm'
  rw [startApart, hmeets] at hapart
  cases hapart

/-! ## Detecting in a part of a text -/

theorem detect?_cons (c : Char) (text : List Char) : detect? (c :: text) =
    (all.find? (·.opensPage (c :: text))).or (detect? text) := by
  rw [detect?]
  cases all.find? (·.opensPage (c :: text)) <;> rfl

theorem detect?_of_notMem (h : ':' ∉ text) : detect? text = none := by
  induction text with
  | nil => rfl
  | cons c text ih =>
    rw [detect?_cons, ih fun hmem => h (List.mem_cons_of_mem _ hmem)]
    have : all.find? (·.opensPage (c :: text)) = none := by
      rw [List.find?_eq_none]
      exact fun other _ => by rw [opensPage_of_notMem h]; decide
    rw [this]
    rfl

theorem detect?_of_opensPage (h : locale.opensPage text) : detect? text = some locale := by
  cases text with
  | nil => rw [opensPage_of_notMem List.not_mem_nil] at h; cases h
  | cons c text =>
    rw [detect?_cons]
    have hsome : (all.find? (·.opensPage (c :: text))).isSome :=
      List.find?_isSome.2 ⟨locale, locale.mem_all, h⟩
    obtain ⟨found, hfound⟩ := Option.isSome_iff_exists.1 hsome
    have hopens : found.opensPage (c :: text) :=
      List.find?_some (p := fun other : Locale => other.opensPage (c :: text)) hfound
    rw [hfound, opensPage_unique hopens h]
    rfl

/-- A text and more text, where no page keyword begins in the one and ends in the other. -/
theorem detect?_append (h : ∀ back, back ≠ [] → back <:+ text → (∃ c ∈ back, isLetter c = false) ∨
    ∀ c ∈ more.head?, isLetter c = false ∧ c ≠ ':') :
    detect? (text ++ more) = (detect? text).or (detect? more) := by
  induction text with
  | nil => rfl
  | cons c text ih =>
    rw [List.cons_append, detect?_cons, detect?_cons,
      ih fun back hne hback => h back hne (hback.trans (List.suffix_cons c text)), Option.or_assoc]
    congr 2
    funext other
    exact opensPage_append (h (c :: text) (List.cons_ne_nil _ _) (List.suffix_refl _))

/-- A text that spells no part of a page keyword is passed over. -/
theorem detect?_skip (hcolon : ':' ∉ text) (hhead : ∀ c ∈ more.head?, c ≠ ':')
    (hletters : (∀ c ∈ text, isLetter c = false) ∨ ∀ c ∈ more.head?, isLetter c = false) :
    detect? (text ++ more) = detect? more := by
  rw [detect?_append, detect?_of_notMem hcolon, Option.none_or]
  intro back hne hback
  rcases hletters with htext | hmore
  · exact .inl ⟨back.head hne, List.head_mem hne, htext _ (hback.subset (List.head_mem hne))⟩
  · exact .inr fun c hc => ⟨hmore c hc, hhead c hc⟩

/-- A text and more text with a character in between that is no letter. -/
theorem detect?_append_cons (text : List Char) {c : Char} (hletter : isLetter c = false)
    (hcolon : c ≠ ':') (more : List Char) :
    detect? (text ++ c :: more) = (detect? text).or (detect? more) := by
  have hone : detect? [c] = none := detect?_of_notMem fun h => hcolon (List.mem_singleton.1 h).symm
  have hback : ∀ back : List Char, back ≠ [] → back <:+ text ++ [c] →
      ∃ d ∈ back, isLetter d = false := by
    intro back hne hback
    obtain ⟨front, hfront⟩ := hback
    refine ⟨c, ?_, hletter⟩
    have hlast := congrArg List.getLast? hfront
    rw [List.getLast?_append_of_ne_nil _ hne, List.getLast?_concat] at hlast
    exact List.mem_of_mem_getLast? hlast
  have hsplit : text ++ c :: more = text ++ [c] ++ more := (List.append_cons ..)
  rw [hsplit, detect?_append fun back hne h => .inl (hback back hne h),
    detect?_append fun _ _ _ => .inr fun d hd => by
      rw [← Option.some.inj hd]; exact ⟨hletter, hcolon⟩,
    hone, Option.or_none]

/-- What is no letter and no colon is passed over at the front of a text. -/
theorem detect?_quiet {front : List Char} (h : ∀ c ∈ front, isLetter c = false ∧ c ≠ ':') :
    detect? (front ++ text) = detect? text := by
  induction front with
  | nil => rfl
  | cons c front ih =>
    obtain ⟨⟨hletter, hcolon⟩, hfront⟩ := List.forall_mem_cons.1 h
    exact (detect?_append_cons [] hletter hcolon (front ++ text)).trans (ih hfront)

end Locale

/-! ## Before the first page keyword -/

/-- Whether a keyword names a device. -/
def TokenKind.isDevice : TokenKind → Bool
  | .keyword k => (Device.ofKeyword? k).isSome
  | _ => false

section Lexemes

variable {locale : Locale} {kind : TokenKind} {image rest : List Char}

/-- The characters of a line end. -/
theorem forall_of_lineEnd
    (h : lexemeAt? locale.regularTerminals (image ++ rest) = some (.lineEnd, image.length)) :
    ∀ c ∈ image, Shape.isLineTail c || Shape.isBreak c := by
  have hmem : (⟨.lineEnd, .lineEnd⟩ : Terminal) ∈ Terminal.shared := by simp [Terminal.shared]
  have hlength : Shape.lineEndLength? (image ++ rest) = some image.length :=
    (length?_of_lexemeAt? hmem h).2
  obtain ⟨tail, b, after, htext, htail, hlast⟩ := exists_of_lineEndLength? hlength
  rw [← List.append_assoc] at htext
  obtain ⟨rfl, -⟩ := List.append_inj htext hlast
  have hbreak : ∀ c ∈ b.chars, Shape.isBreak c = true := by cases b <;> decide
  exact List.forall_mem_append.2 ⟨fun c hc => Bool.or_eq_true_iff.2 (.inl (htail c hc)),
    fun c hc => Bool.or_eq_true_iff.2 (.inr (hbreak c hc))⟩

theorem isLetter_of_isBreak {c : Char} (h : Shape.isBreak c) : isLetter c = false ∧ c ≠ ':' := by
  rw [Shape.isBreak, Bool.or_eq_true, decide_eq_true_eq, decide_eq_true_eq] at h
  rcases h with rfl | rfl <;> decide

theorem isLetter_of_isLineTail {c : Char} (h : Shape.isLineTail c) :
    isLetter c = false ∧ c ≠ ':' := by
  simp only [Shape.isLineTail, Bool.or_eq_true, decide_eq_true_eq] at h
  rcases h with (rfl | rfl) | rfl <;> decide

theorem longestMatch?_of_isWord (hkind : kind.isWord) {text : List Char} {n : Nat}
    (h : lexemeAt? locale.regularTerminals text = some (kind, n)) :
    longestMatch? locale.regularTerminals text = some (kind, n) := by
  rw [lexemeAt?] at h
  cases hmatch : longestMatch? locale.regularTerminals text with
  | some found => rwa [hmatch] at h
  | none =>
    rw [hmatch] at h
    obtain ⟨m, -, heq⟩ := Option.map_eq_some_iff.1 h
    rw [← (Prod.mk.inj heq).1] at hkind
    cases hkind

theorem Locale.device_forms (locale : Locale) : ∀ t ∈ locale.wordTerminals, t.kind.isDevice →
    ∀ f ∈ t.forms, f.bounded ∧ areLetters f.marks := by
  cases locale <;> decide +kernel

theorem Locale.page_forms (locale : Locale) : ∀ t ∈ locale.wordTerminals, t.kind = .keyword .page →
    ∀ f ∈ t.forms, ∃ marks ∈ locale.pageMarks, f.marks = marks ++ [.letter ':'] := by
  cases locale <;> decide +kernel

theorem isLetter_of_spelling {marks : List Mark} {text squeezed : List Char}
    (h : Spelling marks text squeezed) (hmarks : areLetters marks) : ∀ c ∈ text, isLetter c := by
  induction h with
  | nil => exact fun _ h => absurd h List.not_mem_nil
  | letter hm _ _ ih =>
    rw [areLetters, List.all_cons, Bool.and_eq_true, Bool.and_eq_true] at hmarks
    exact List.forall_mem_cons.2 ⟨Mark.isLetter_of_isLetterMark hmarks.1.2 hm, ih hmarks.2⟩
  | gap => exact Bool.noConfusion hmarks

theorem isLetter_colon : isLetter ':' = false := by
  decide

/-- What comes before a page keyword, but for comments, spells no part of one. -/
theorem quiet_of_lexemeAt? (hkind : kind = .lineEnd ∨ kind = .blanks ∨ kind.isDevice)
    (h : lexemeAt? locale.regularTerminals (image ++ rest) = some (kind, image.length)) :
    ':' ∉ image ∧ ((∀ c ∈ image, isLetter c = false) ∨ ∀ c ∈ rest.head?, isLetter c = false) := by
  rcases hkind with rfl | rfl | hdevice
  · have hchars : ∀ c ∈ image, isLetter c = false ∧ c ≠ ':' := fun c hc =>
      (Bool.or_eq_true_iff.1 (forall_of_lineEnd h c hc)).elim isLetter_of_isLineTail
        isLetter_of_isBreak
    exact ⟨fun hmem => (hchars ':' hmem).2 rfl, .inl fun c hc => (hchars c hc).1⟩
  · have hchars := isInnerBlank_of_blanks h
    refine ⟨fun hmem => absurd (hchars ':' hmem) (by decide), .inl fun c hc => ?_⟩
    exact isLetter_of_isBlank (Bool.and_eq_true_iff.1 (hchars c hc)).1
  -- a device is of letters only, and no letter comes after it
  · have hword : kind.isWord := by
      cases kind <;> first | rfl | exact Bool.noConfusion hdevice
    obtain ⟨t, ht, f, hf, rfl, hspelling, hlength, -⟩ :=
      Locale.exists_form hword (longestMatch?_of_isWord hword h)
    obtain ⟨hbounded, hletters⟩ := locale.device_forms t ht hdevice f hf
    refine ⟨fun hmem => ?_, .inr fun c hc => ?_⟩
    · have hcolon := isLetter_of_spelling hspelling hletters ':' hmem
      rw [isLetter_colon] at hcolon
      cases hcolon
    · have := (formLength?_eq_some_iff.1 hlength).2 hbounded
      rw [List.drop_left, Option.mem_def.1 hc] at this
      exact this

/-- What is lexed as the page keyword of a locale begins with it, and with a letter. -/
theorem opensPage_of_lexemeAt?
    (h : lexemeAt? locale.regularTerminals (image ++ rest) = some (.keyword .page, image.length)) :
    locale.opensPage (image ++ rest) ∧ ∀ c ∈ (image ++ rest).head?, c ≠ ':' := by
  obtain ⟨t, ht, f, hf, hkind, -, hlength, c, more, rfl, hc, -⟩ :=
    Locale.exists_form rfl (longestMatch?_of_isWord rfl h)
  obtain ⟨marks, hmarks, hform⟩ := locale.page_forms t ht hkind f hf
  refine ⟨Locale.opensPage_iff.2 ⟨marks, hmarks, ?_⟩, fun d hd => ?_⟩
  · rw [← isSome_spelledLength?_iff (locale.areLetters_pageMarks marks hmarks), ← hform,
      (formLength?_eq_some_iff.1 hlength).1]
    rfl
  · obtain rfl := Option.some.inj hd
    exact ne_of_isLetter hc isLetter_colon

end Lexemes

/-- Whether a segment can stand before the first page keyword: all but tokens other than line ends
    and devices, and what is stray. -/
def Segment.isLead : Segment → Bool
  | .token t => t.kind = .lineEnd || t.kind.isDevice
  | .comment t => t.kind = .comment
  | .stray .. => false
  | _ => true

section Leads

variable {locale : Locale} {text : List Char} {front back : List Segment}

theorem Segment.isLead.piece {segment : Segment} (h : segment.isLead) : ∃ kind image,
    segment.piece = .lexeme kind image ∧
      ((kind = .comment ∧ ∃ t, segment = .comment t ∧ t.chars = image) ∨
        (segment.comment? = none ∧ (kind = .lineEnd ∨ kind = .blanks ∨ kind.isDevice))) := by
  cases segment with
  | token t =>
    refine ⟨_, _, rfl, .inr ⟨rfl, ?_⟩⟩
    rcases Bool.or_eq_true_iff.1 h with h | h
    · exact .inl (of_decide_eq_true h)
    · exact .inr (.inr h)
  | comment t => exact ⟨_, _, rfl, .inl ⟨of_decide_eq_true h, t, rfl, rfl⟩⟩
  | blanks image => exact ⟨_, _, rfl, .inr ⟨rfl, .inr (.inl rfl)⟩⟩
  | commentEnd image => exact ⟨_, _, rfl, .inr ⟨rfl, .inl rfl⟩⟩
  | stray => exact Bool.noConfusion h

/-- Before the first page keyword only comments can spell one. -/
theorem detect?_leads (h : Splits locale text ((front ++ back).map Segment.piece))
    (hfront : ∀ segment ∈ front, segment.isLead) (hback : ∀ c ∈ (textOf back).head?, c ≠ ':') :
    Locale.detect? text = ((front.filterMap Segment.comment?).findSome? (Locale.detect? ·.chars)).or
      (Locale.detect? (textOf back)) ∧ ∀ c ∈ text.head?, c ≠ ':' := by
  induction front generalizing text with
  | nil =>
    rw [← h.flatMap_image]
    exact ⟨rfl, hback⟩
  | cons segment front ih =>
    obtain ⟨hsegment, hfront⟩ := List.forall_mem_cons.1 hfront
    obtain ⟨kind, image, hpiece, hkind⟩ := Segment.isLead.piece hsegment
    rw [List.cons_append, List.map_cons, hpiece] at h
    cases h with
    | @lexeme _ _ rest _ hne hlexeme hrest =>
      obtain ⟨hdetect, hhead⟩ := ih hrest hfront
      -- a comment spells what it spells by itself, and the other pieces spell nothing
      rcases hkind with ⟨rfl, t, rfl, rfl⟩ | ⟨hnone, hkind⟩
      · obtain ⟨comment, hcomment, -, hbreak⟩ := exists_of_comment hlexeme
        rw [Locale.detect?_append fun _ _ _ => .inr fun c hc => isLetter_of_isBreak (hbreak c hc),
          hdetect, List.filterMap_cons_some (f := Segment.comment?) (a := .comment t) (b := t) rfl,
          List.findSome?_cons]
        refine ⟨by cases Locale.detect? t.chars <;> rfl, fun c hc => ?_⟩
        rw [hcomment] at hc
        obtain rfl := Option.some.inj hc
        decide
      · obtain ⟨hcolon, hletters⟩ := quiet_of_lexemeAt? hkind hlexeme
        rw [Locale.detect?_skip hcolon hhead hletters, hdetect, List.filterMap_cons_none hnone]
        refine ⟨rfl, fun c hc heq => hcolon ?_⟩
        rw [List.head?_append_of_ne_nil _ hne] at hc
        exact heq ▸ List.mem_of_mem_head? hc

end Leads

/-! ## The first page of a scene -/

/-- Before the first page keyword of a scene there are only line ends and a device. -/
theorem Scene.Reads.exists_leads {greedy : Prop} {s : Scene} {rows : List Row} {p : Page}
    (h : s.Reads greedy rows) (hwell : ∀ r ∈ rows, r.IsWellFormed) (hp : s.pages.head? = some p) :
    p.keyword.kind = .keyword .page ∧ ∃ before after,
      Row.tokens rows = before ++ p.keyword :: after ∧
        ∀ t ∈ before, t.kind = .lineEnd ∨ t.kind.isDevice := by
  obtain ⟨pages, lineEnds, comments⟩ := s
  refine RowsOfLines.induction (motive := fun pages _ rows => (∀ r ∈ rows, r.IsWellFormed) →
    pages.head? = some p → p.keyword.kind = .keyword .page ∧ ∃ before after,
      Row.tokens rows = before ++ p.keyword :: after ∧
        ∀ t ∈ before, t.kind = .lineEnd ∨ t.kind.isDevice) ?_ ?_ ?_ h hwell hp
  · exact fun _ h => absurd h nofun
  -- a blank line before the first page is one more line end
  · intro t _ _ rows _ ih hwell hp
    obtain ⟨hblank, hwell⟩ := List.forall_mem_cons.1 hwell
    obtain ⟨hkind, before, after, htokens, hbefore⟩ := ih hwell hp
    refine ⟨hkind, t :: before, after, ?_, List.forall_mem_cons.2 ⟨.inl hblank, hbefore⟩⟩
    rw [Row.tokens_cons, htokens]
    rfl
  · rintro x r _ _ rows ⟨rest, -, rfl⟩ - - - hwell hp
    obtain rfl : x = p := Option.some.inj hp
    obtain ⟨hdevice, hkind, -⟩ : x.headRow.IsWellFormed := hwell _ List.mem_cons_self
    refine ⟨hkind, x.device.toList.map DeviceTag.token,
      x.title.token :: x.lineEnd :: Row.tokens (rest ++ rows), ?_, ?_⟩
    · rw [List.cons_append, Row.tokens_cons]
      simp [Page.headRow, Row.leaves]
    · refine List.forall_mem_map.2 fun d hd => .inr ?_
      rw [show d.token.kind = .keyword d.device.keyword from hdevice d (Option.mem_toList.1 hd)]
      cases d.device <;> rfl

section Segments

variable {locale : Locale} {text : List Char} {l : Lexing} {segments : List Segment}

/-- Where there are no tokens but line ends and devices, and no errors, all segments are leads. -/
theorem IsSegmented.isLead (h : IsSegmented locale text l segments) (herrors : l.errors = [])
    {segment : Segment} (hmem : segment ∈ segments)
    (htoken : ∀ t, segment = .token t → t.kind = .lineEnd ∨ t.kind.isDevice) : segment.isLead := by
  cases segment with
  | token t =>
    rcases htoken t rfl with hkind | hkind
    · exact Bool.or_eq_true_iff.2 (.inl (decide_eq_true hkind))
    · exact Bool.or_eq_true_iff.2 (.inr hkind)
  | comment t => exact decide_eq_true (h.kind_comment t hmem)
  | stray image range =>
    have hne : image ≠ [] := h.splits.image_ne_nil _ (List.mem_map_of_mem hmem)
    obtain ⟨c, image, rfl⟩ := List.exists_cons_of_ne_nil hne
    have herror : ⟨.stray c (c :: image).length, range⟩ ∈ l.errors :=
      h.errors_eq ▸ List.mem_filterMap.2 ⟨_, hmem, rfl⟩
    rw [herrors] at herror
    exact absurd herror List.not_mem_nil
  | _ => rfl

/-- The segments of a text without errors, up to a token: what the tokens
    before it are, is known. -/
theorem IsSegmented.exists_leads (h : IsSegmented locale text l segments) (herrors : l.errors = [])
    {before after : List Token} {keyword : Token} (htokens : l.tokens = before ++ keyword :: after)
    (hbefore : ∀ t ∈ before, t.kind = .lineEnd ∨ t.kind.isDevice) :
    ∃ front back, segments = front ++ .token keyword :: back ∧
      ∀ segment ∈ front, segment.isLead := by
  rw [h.tokens_eq] at htokens
  obtain ⟨front, rest, rfl, hfront, hrest⟩ := List.filterMap_eq_append_iff.1 htokens
  obtain ⟨skipped, segment, back, rfl, hskipped, hsegment, -⟩ := List.filterMap_eq_cons_iff.1 hrest
  obtain rfl := mem_of_token? hsegment
  refine ⟨front ++ skipped, back, (List.append_assoc ..).symm, fun segment hmem => ?_⟩
  have hmem' : segment ∈ front ++ (skipped ++ .token keyword :: back) := by
    rw [← List.append_assoc]
    exact List.mem_append_left _ hmem
  refine h.isLead herrors hmem' fun t ht => ?_
  subst ht
  rcases List.mem_append.1 hmem with hmem | hmem
  · exact hbefore t (hfront ▸ List.mem_filterMap.2 ⟨_, hmem, rfl⟩)
  · exact absurd (hskipped _ hmem) nofun

/-- The comments above a token are those with a smaller offset. -/
theorem IsSegmented.filter_comments {front back : List Segment} {keyword : Token}
    (h : IsSegmented locale text l (front ++ .token keyword :: back)) :
    l.comments.filter (·.offset < keyword.offset) = front.filterMap Segment.comment? := by
  have hcomment : ∀ {t : Token} {segment : Segment}, segment.comment? = some t →
      segment = .comment t := by
    intro t segment ht
    cases segment with
    | comment t' => exact congrArg _ (Option.some.inj ht)
    | _ => cases ht
  -- what is before the keyword has a smaller offset, and what is after it a larger one
  have hkeyword := h.offset_eq rfl rfl
  rw [h.comments_eq, List.filterMap_append, List.filterMap_cons_none (by rfl), List.filter_append]
  refine (congrArg₂ _ (List.filter_eq_self.2 fun t ht => ?_)
    (List.filter_eq_nil_iff.2 fun t ht => ?_)).trans (List.append_nil _)
  · obtain ⟨segment, hmem, ht⟩ := List.mem_filterMap.1 ht
    obtain rfl := hcomment ht
    obtain ⟨before, after, rfl⟩ := List.append_of_mem hmem
    have hoffset := h.offset_eq (t := t) (List.append_assoc before _ _) rfl
    have hne : t.chars ≠ [] := h.splits.image_ne_nil (.lexeme t.kind t.chars)
      (List.mem_map.2 ⟨.comment t, List.mem_append_left _ hmem, rfl⟩)
    have hpos := byteLength_pos hne
    rw [decide_eq_true_eq, hoffset, hkeyword, textOf_append, byteLength_append]
    have : textOf (.comment t :: after) = t.chars ++ textOf after := rfl
    rw [this, byteLength_append]
    omega
  · obtain ⟨segment, hmem, ht⟩ := List.mem_filterMap.1 ht
    obtain rfl := hcomment ht
    obtain ⟨before, after, rfl⟩ := List.append_of_mem hmem
    have hoffset := h.offset_eq (t := t)
      (List.append_assoc front (.token keyword :: before) _).symm rfl
    rw [decide_eq_true_eq, hoffset, hkeyword, textOf_append, byteLength_append]
    omega

/-- At a page keyword the locale spells one, and not its colon alone. -/
theorem IsSegmented.opensPage {front back : List Segment} {keyword : Token}
    (h : IsSegmented locale text l (front ++ .token keyword :: back))
    (hkind : keyword.kind = .keyword .page) :
    locale.opensPage (textOf (.token keyword :: back)) ∧
      ∀ c ∈ (textOf (.token keyword :: back)).head?, c ≠ ':' := by
  have hpieces : (Segment.token keyword :: back).map Segment.piece =
      .lexeme (.keyword .page) keyword.chars :: back.map Segment.piece := by
    rw [List.map_cons, Segment.piece, hkind]
  have hrest := h.splits
  rw [List.map_append] at hrest
  rw [textOf, hpieces]
  have hrest := (hpieces ▸ hrest).drop
  generalize List.flatMap Piece.image _ = rest at hrest ⊢
  cases hrest with
  | lexeme _ hlexeme _ => exact opensPage_of_lexemeAt? hlexeme

/-- In a text that is a scene, only line ends, a device, blanks and comments come before
    the first page keyword. -/
theorem exists_leads_of_scene {limit : Nat} {p : Page}
    (herrors : (Lexing.ofText locale text).errors = [])
    (hparse : (Parsing.ofTokens limit (Lexing.ofText locale text).tokens).errors = [])
    (hp : (Parsing.ofTokens limit (Lexing.ofText locale text).tokens).scene.pages.head? = some p) :
    p.keyword.kind = .keyword .page ∧ ∃ front back,
      IsSegmented locale text (.ofText locale text) (front ++ .token p.keyword :: back) ∧
        ∀ segment ∈ front, segment.isLead := by
  have hsegmented := isSegmented_segmentsOf locale text
  obtain ⟨rows, hreads, -, hwell, hkept⟩ := Parsing.exists_greedy_rows hparse
  obtain ⟨hkind, before, after, hrows, hbefore⟩ := hreads.exists_leads hwell hp
  have hall : Parsing.kept (Lexing.ofText locale text).tokens =
      (Lexing.ofText locale text).tokens :=
    Parsing.kept_eq_self fun t ht => by
      rw [hsegmented.tokens_eq] at ht
      obtain ⟨segment, hmem, hsegment⟩ := List.mem_filterMap.1 ht
      exact hsegmented.kind_token t (mem_of_token? hsegment ▸ hmem)
  obtain ⟨front, back, hsplit, hfront⟩ := hsegmented.exists_leads herrors
    (by rw [← hall, ← hkept, hrows]) hbefore
  exact ⟨hkind, front, back, hsplit ▸ hsegmented, hfront⟩

end Segments

namespace Reading

/-- What the locale is that is detected in a text which can be read in the locale `L` and has a
    page: the one of the first page keyword in the comments above the first page, if they spell any,
    and `L` otherwise. Only then is the text read in the same way when the locale is detected. -/
theorem detected_spec {L found : Locale} {endsLastLine : Bool} {limit : Nat} {text : List Char}
    {scene : Scene} {tokens : List Token} {p : Page}
    (h : ofText ⟨.fixed L, endsLastLine, limit⟩ text = success found scene tokens)
    (hp : scene.pages.head? = some p) :
    let above := scene.comments.filter (·.token.offset < p.keyword.offset)
    let detected := (above.findSome? (Locale.detect? ·.token.chars)).getD L
    Locale.detect? (ReadingOptions.source ⟨.auto, endsLastLine, limit⟩ text) = some detected ∧
      (ofText ⟨.auto, endsLastLine, limit⟩ text = ofText ⟨.fixed L, endsLastLine, limit⟩ text ↔
        detected = L) := by
  intro above detected
  obtain ⟨hlocale, hlex, htokens, hparse, hscene⟩ := of_success h
  obtain rfl : L = found := Option.some.inj hlocale
  have hsource : ReadingOptions.source ⟨.fixed L, endsLastLine, limit⟩ text =
      ReadingOptions.source ⟨.auto, endsLastLine, limit⟩ text := rfl
  rw [hsource] at hlex htokens hscene
  have hdetect : Locale.detect? (ReadingOptions.source ⟨.auto, endsLastLine, limit⟩ text) =
      some detected := by
    rw [htokens] at hparse
    obtain ⟨hkind, front, back, hsegmented, hfront⟩ := exists_leads_of_scene hlex hparse
      (show _ = some p by rw [← hp, hscene, htokens])
    obtain ⟨hopens, hcolon⟩ := hsegmented.opensPage hkind
    have habove : above.map Comment.token = front.filterMap Segment.comment? := by
      rw [← hsegmented.filter_comments]
      change (scene.comments.filter _).map _ = _
      rw [hscene, List.filter_map, List.map_map]
      exact List.map_id _
    rw [(detect?_leads hsegmented.splits hfront hcolon).1, Locale.detect?_of_opensPage hopens,
      ← habove, List.findSome?_map]
    change (above.findSome? (Locale.detect? ·.token.chars)).or (some L) = some detected
    rw [Option.or_some]
  refine ⟨hdetect, fun heq => ?_, fun heq => ?_⟩
  · have hauto := (of_success (heq.trans h)).1
    exact Option.some.inj (hdetect.symm.trans hauto)
  · rw [heq] at hdetect
    rw [ofText, ofText]
    dsimp only [ReadingOptions.locale?]
    rw [hdetect]
    rfl

/-- A comment above the first page can hide the locale of a scene. -/
theorem not_detected_of_comment :
    ¬ ∀ (L : Locale) (text : List Char) (endsLastLine : Bool) (limit : Nat)
    (found : Locale) (scene : Scene) (tokens : List Token),
    ofText ⟨.fixed L, endsLastLine, limit⟩ text = success found scene tokens → scene.pages ≠ [] →
      Locale.detect? (ReadingOptions.source ⟨.auto, endsLastLine, limit⟩ text) = some L ∧
        ofText ⟨.auto, endsLastLine, limit⟩ text = ofText ⟨.fixed L, endsLastLine, limit⟩ text := by
  intro h
  have hsuccess :
      (ofText ⟨.fixed .english, true, 9⟩ "// экран:\nPage: A\n".toList).isSuccess = true := by
    decide +kernel
  have hpages : ((ofText ⟨.fixed .english, true, 9⟩ "// экран:\nPage: A\n".toList).scene?.map
      Scene.pages) ≠ some [] := by
    decide +kernel
  obtain ⟨found, scene, tokens, hread⟩ := exists_of_isSuccess hsuccess
  rw [hread] at hpages
  have hdetect := (h _ _ _ _ _ _ _ hread fun hnil => hpages (congrArg some hnil)).1
  exact absurd hdetect (by decide +kernel)

/-- A comment that spells a page keyword of the same locale, and a device
    before the page keyword. -/
theorem detected_spec_device :
    ∃ scene tokens, ∃ p : Page,
      ofText ⟨.fixed .english, true, 9⟩ "// screen: ok\nMobile page: A".toList =
        success .english scene tokens ∧ scene.pages.head? = some p ∧
      Locale.detect? "// screen: ok\nMobile page: A\n".toList =
        some (((scene.comments.filter (·.token.offset < p.keyword.offset)).findSome?
          (Locale.detect? ·.token.chars)).getD .english) := by
  have hsuccess : (ofText ⟨.fixed .english, true, 9⟩
      "// screen: ok\nMobile page: A".toList).isSuccess = true := by decide +kernel
  have hpages : ((ofText ⟨.fixed .english, true, 9⟩
      "// screen: ok\nMobile page: A".toList).scene?.bind (·.pages.head?)).isSome = true := by
    decide +kernel
  have hlocale : (ofText ⟨.fixed .english, true, 9⟩
      "// screen: ok\nMobile page: A".toList).locale? = some .english := by decide +kernel
  obtain ⟨found, scene, tokens, hread⟩ := exists_of_isSuccess hsuccess
  rw [hread] at hpages hlocale
  obtain rfl : found = .english := Option.some.inj hlocale
  obtain ⟨p, hp⟩ := Option.isSome_iff_exists.1 hpages
  exact ⟨scene, tokens, p, hread, hp, (detected_spec hread hp).1⟩

end Reading

end Wireframe
