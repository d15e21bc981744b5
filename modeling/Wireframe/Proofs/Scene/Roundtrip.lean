import Wireframe.Proofs.Reading
import Wireframe.Proofs.Scene.Reprinted
import Wireframe.Proofs.Token.CommentLine

/-!
# Reading what was printed

A scene that was read from a text is printed, and the layout is read with the same options: this
gives essentially the same scene, and the same layout (`Reading.ofText_layout`), if the captions of
the scene fit in where they are printed (`CaptionsFit`).

In its own locale the layout reads back by `Reading.reread_inLocale`. It remains that this locale is
detected in the layout where it was in the text (`Reading.detect?_layout`). Both spell the same page
keywords in the same order: those of the comments above the first page, then that of the page.
-/

namespace Wireframe

open Text

/-! ## The locale of a sheet -/

section Detect

variable {locale : Locale} {text : List Char}

namespace Locale

theorem detect?_spaces (n : Nat) (text : List Char) :
    detect? (List.replicate n ' ' ++ text) = detect? text :=
  detect?_quiet fun _ hc => List.eq_of_mem_replicate hc ▸ ⟨isLetter_space, by decide⟩

/-- Blanks after a text spell nothing. -/
theorem detect?_append_blanks {blanks : List Char} (h : ∀ c ∈ blanks, isBlank c) :
    detect? (text ++ blanks) = detect? text := by
  have hquiet : ∀ c ∈ blanks, isLetter c = false ∧ c ≠ ':' := by
    intro c hc
    refine ⟨isLetter_of_isBlank (h c hc), fun heq => ?_⟩
    have := heq ▸ h c hc
    exact absurd this (by decide)
  have hnone : detect? blanks = none := detect?_of_notMem fun hmem => (hquiet ':' hmem).2 rfl
  rw [detect?_append fun _ _ _ => .inr fun c hc => hquiet c (List.mem_of_mem_head? hc), hnone,
    Option.or_none]

end Locale

/-- A word with a colon after it, however the text goes on. -/
theorem Spelling.opensWith {marks : List Mark} {squeezed : List Char} (hmarks : areLetters marks)
    (h : Spelling (marks ++ [.letter ':']) text squeezed) (more : List Char) :
    OpensWith marks (text ++ more) := by
  induction marks generalizing text squeezed with
  | nil =>
    cases h with
    | letter hc _ hnil =>
      cases hnil
      rw [opensWith_nil, reads_colon_iff.1 hc]
      rfl
  | cons m marks ih =>
    rw [areLetters, List.all_cons, Bool.and_eq_true] at hmarks
    cases h with
    | letter hc _ hrest => exact opensWith_cons.2 ⟨hc, ih hmarks.2 hrest⟩
    | gap => exact Bool.noConfusion hmarks.1

namespace Token

variable {t : Token}

/-- A page keyword opens a page when it is printed. -/
theorem IsLexeme.opensPage (h : t.IsLexeme locale) (hkind : t.kind = .keyword .page)
    (more : List Char) : locale.opensPage (t.shown ++ more) := by
  obtain ⟨rest, h⟩ := h
  obtain ⟨u, hu, f, hf, hsame, hspelling, -⟩ := exists_form_of_shown h (by rw [hkind]; rfl)
  obtain ⟨marks, hmarks, hform⟩ := locale.page_forms u hu (hsame.trans hkind) f hf
  have hself := hspelling.squeezed_self
  rw [hform] at hself
  exact Locale.opensPage_iff.2
    ⟨marks, hmarks, hself.opensWith (locale.areLetters_pageMarks marks hmarks) more⟩

/-- A device spells no page keyword. -/
theorem IsLexeme.detect?_device (h : t.IsLexeme locale) (hkind : t.kind.isDevice) :
    Locale.detect? t.shown = none := by
  have hword : t.kind.isWord := by
    cases hk : t.kind <;> rw [hk] at hkind <;> first | rfl | exact Bool.noConfusion hkind
  obtain ⟨rest, h⟩ := h
  obtain ⟨u, hu, f, hf, hsame, hspelling, -⟩ := exists_form_of_shown h hword
  obtain ⟨-, hletters⟩ := locale.device_forms u hu (hsame ▸ hkind) f hf
  refine Locale.detect?_of_notMem fun hmem => ?_
  have hcolon := isLetter_of_spelling hspelling.squeezed_self hletters ':' hmem
  rw [isLetter_colon] at hcolon
  cases hcolon

end Token

/-- The first line of a page tells the locale. -/
theorem Page.detect?_lines {p : Page} (h : p.headRow.IsWritten locale) :
    (LaidRow.lines ⟨0, p.headRow⟩).findSome? (Locale.detect? ·.chars) = some locale := by
  obtain ⟨hdevice, hkeyword, htitle, -⟩ := h.wellFormed
  have hlexeme := h.isLexeme _ List.mem_cons_self
  have hopens (more : List Char) : Locale.detect? (p.keyword.shown ++ more) = some locale :=
    Locale.detect?_of_opensPage ((hlexeme p.keyword (by simp)).opensPage hkeyword more)
  cases hd : p.device with
  | none =>
    have hlines : LaidRow.lines ⟨0, p.headRow⟩ = [.words 0 [p.keyword, p.title.token]] := by
      simp [LaidRow.lines, Page.headRow, Row.lines, hd]
    rw [hlines, List.findSome?_singleton]
    exact hopens _
  | some d =>
    have hlines : LaidRow.lines ⟨0, p.headRow⟩ =
        [.words 0 [d.token, p.keyword, p.title.token]] := by
      simp [LaidRow.lines, Page.headRow, Row.lines, hd]
    have hkind : d.token.kind.isDevice := by
      rw [show d.token.kind = .keyword d.device.keyword from hdevice d hd]
      cases d.device <;> rfl
    have hnone := (hlexeme d.token (by simp [hd])).detect?_device hkind
    have hcomma : p.keyword.kind ≠ .comma := fun h => TokenKind.noConfusion (hkeyword.symm.trans h)
    rw [hlines, List.findSome?_singleton]
    change Locale.detect?
      (d.token.shown ++ ((if p.keyword.kind = .comma then [] else [' ']) ++ _)) = _
    rw [if_neg hcomma, List.singleton_append,
      Locale.detect?_append_cons _ isLetter_space (by decide), hnone]
    exact hopens _

/-- In a sheet no line runs into the next one. -/
theorem detect?_sheetChars (sheet : List SheetLine) :
    Locale.detect? (sheetChars sheet) = sheet.findSome? (Locale.detect? ·.chars) := by
  induction sheet with
  | nil => rfl
  | cons line sheet ih =>
    have := Locale.detect?_append_cons line.chars (isLetter_of_isBlank isBlank_lineFeed) (by decide)
      (sheetChars sheet)
    rw [sheetChars, List.flatMap_cons, ← sheetChars, List.append_assoc, List.singleton_append, this,
      ih, List.findSome?_cons]
    cases Locale.detect? line.chars <;> rfl

/-- A comment spells the same when it is printed. -/
theorem detect?_comment {c : Token} (h : ∃ text, c.chars = '/' :: '/' :: text) (level : Nat) :
    Locale.detect? (SheetLine.comment level c).chars = Locale.detect? c.chars := by
  obtain ⟨text, hchars⟩ := h
  have hslash : isBlank '/' = false := by decide
  obtain ⟨blanks, hblanks, hblank, -⟩ := exists_trimEnd ('/' :: '/' :: text)
  rw [SheetLine.chars, Locale.detect?_spaces, hchars, trim_cons hslash]
  nth_rewrite 2 [hblanks]
  exact (Locale.detect?_append_blanks hblank).symm

end Detect

theorem takeWhile_congr {α : Type} {p q : α → Bool} {xs : List α} (h : ∀ x ∈ xs, p x = q x) :
    xs.takeWhile p = xs.takeWhile q := by
  induction xs with
  | nil => rfl
  | cons x xs ih =>
    obtain ⟨hx, hxs⟩ := List.forall_mem_cons.1 h
    rw [List.takeWhile_cons, List.takeWhile_cons, hx, ih hxs]

namespace Reading

variable {o : ReadingOptions} {text : List Char} {locale : Locale} {s : Scene} {tokens : List Token}

/-- The words at the head of a page are next to each other. -/
theorem exists_head_of_page (h : ofText o text = success locale s tokens)
    {p : Page} (hp : p ∈ s.pages) :
    ∃ w front back, tokens = front ++ w :: back ∧ w.kind ≠ .lineEnd ∧
      p.headPassage.line = w.line ∧
      (w = p.keyword ∨ ∃ more, back = p.keyword :: more) ∧ p.keyword.kind ≠ .lineEnd := by
  obtain ⟨rows, hreads, rfl, hwritten⟩ := exists_written_rows h
  have hmem := hreads.headRow_mem hp
  obtain ⟨hdevice, hkeyword, -⟩ : p.headRow.IsWellFormed := (hwritten _ hmem).wellFormed
  obtain ⟨front, back, hrows⟩ := List.append_of_mem hmem
  have hplaced : p.headPassage.IsPlaced :=
    isPlaced_passages h _ (List.mem_flatMap.2 ⟨p, hp, List.mem_cons_self⟩)
  have hkind : p.keyword.kind ≠ .lineEnd := fun h => TokenKind.noConfusion (hkeyword.symm.trans h)
  rw [Passage.IsPlaced] at hplaced
  rw [hplaced, hrows, Row.tokens_append, Row.tokens_cons]
  cases hd : p.device with
  | none =>
    refine ⟨p.keyword, Row.tokens front, p.title.token :: p.lineEnd :: Row.tokens back, ?_, hkind,
      ?_, .inl rfl, hkind⟩
    · simp [Page.headRow, Row.leaves, hd]
    · simp [Passage.words, Passage.ofNode, Page.headPassage, Page.headRow, Row.words, Row.lines, hd]
  | some d =>
    refine ⟨d.token, Row.tokens front, p.keyword :: p.title.token :: p.lineEnd :: Row.tokens back,
      ?_, ?_, ?_, .inr ⟨_, rfl⟩, hkind⟩
    · simp [Page.headRow, Row.leaves, hd]
    · have hd : d.token.kind = .keyword d.device.keyword := hdevice d hd
      exact fun h => TokenKind.noConfusion (hd.symm.trans h)
    · simp [Passage.words, Passage.ofNode, Page.headPassage, Page.headRow, Row.words, Row.lines, hd]

/-- The comments above a page are those that come before its keyword. -/
theorem line_lt_iff (h : ofText o text = success locale s tokens)
    {p : Page} (hp : p ∈ s.pages) {c : Token} (hc : c ∈ s.comments.map Comment.token) :
    c.line < p.headPassage.line ↔ c.offset < p.keyword.offset := by
  obtain ⟨w, front, back, rfl, hw, hline, hkeyword, hkind⟩ := exists_head_of_page h hp
  have horder := inOrder_tokens h
  obtain ⟨-, hlex, htokens, -⟩ := of_success h
  have hlined := Lexing.isLined hlex
  rw [comments_eq h] at hc
  have hmem : w ∈ (Lexing.ofText locale (o.source text)).tokens :=
    htokens ▸ List.mem_append_right _ List.mem_cons_self
  have hoffset : c.line < w.line ↔ c.offset < w.offset :=
    ⟨Lexing.offset_lt_of_line_lt (List.mem_append_right _ hc) (List.mem_append_left _ hmem),
      hlined.below c hc w hmem hw⟩
  rw [hline, hoffset]
  rcases hkeyword with rfl | ⟨more, rfl⟩
  · exact Iff.rfl
  · have hlt : w.offset < p.keyword.offset :=
      List.rel_of_pairwise_cons (horder.sublist (List.sublist_append_right _ _)) List.mem_cons_self
    have hapart := hlined.apart front more w p.keyword htokens.symm hw hkind c hc
    omega

/-- What is detected in the text of a scene with pages: the locale of the first comment above the
    first page that spells a page keyword, or that of the page. -/
theorem detect?_source (h : ofText o text = success locale s tokens) {p : Page}
    (hp : s.pages.head? = some p) : Locale.detect? (o.source text) =
      (((s.comments.map Comment.token).filter (·.offset < p.keyword.offset)).findSome?
        (Locale.detect? ·.chars)).or (some locale) := by
  rw [comments_eq h]
  obtain ⟨-, hlex, htokens, hparse, hscene⟩ := of_success h
  rw [htokens] at hparse hscene
  obtain ⟨hkind, front, back, hsegmented, hfront⟩ :=
    exists_leads_of_scene hlex hparse (hscene ▸ hp)
  obtain ⟨hopens, hcolon⟩ := hsegmented.opensPage hkind
  rw [hsegmented.filter_comments, (detect?_leads hsegmented.splits hfront hcolon).1,
    Locale.detect?_of_opensPage hopens]

/-- In the text of a scene without pages, only comments can spell a page keyword. -/
theorem detect?_source_of_nil (h : ofText o text = success locale s tokens) (hp : s.pages = []) :
    Locale.detect? (o.source text) =
      (s.comments.map Comment.token).findSome? (Locale.detect? ·.chars) := by
  have hends : ∀ t ∈ tokens, t.kind = .lineEnd := by
    have hpassages : s.passages = [] := congrArg (List.flatMap Page.passages) hp
    have hwords := flatMap_words h
    rw [hpassages, List.flatMap_nil] at hwords
    simpa using List.filter_eq_nil_iff.1 hwords.symm
  rw [comments_eq h]
  obtain ⟨-, hlex, rfl, -⟩ := of_success h
  have hsegmented := isSegmented_segmentsOf locale (o.source text)
  have hleads : ∀ segment ∈ segmentsOf locale (o.source text), segment.isLead := by
    refine fun segment hmem => hsegmented.isLead hlex hmem fun t ht => .inl (hends t ?_)
    rw [hsegmented.tokens_eq]
    exact List.mem_filterMap.2 ⟨segment, hmem, ht ▸ rfl⟩
  have hsplits := hsegmented.splits
  rw [← List.append_nil (segmentsOf locale (o.source text))] at hsplits
  rw [(detect?_leads hsplits hleads nofun).1, hsegmented.comments_eq]
  exact Option.or_none

/-- Comments spell on a sheet what they spell in the text. -/
theorem findSome?_comments (h : ofText o text = success locale s tokens) {comments : List Token}
    (hcomments : comments ⊆ s.comments.map Comment.token) (level : Nat) :
    (comments.map (SheetLine.comment level)).findSome? (Locale.detect? ·.chars) =
      comments.findSome? (Locale.detect? ·.chars) := by
  rw [List.findSome?_map]
  refine findSome?_congr fun c hc => ?_
  replace hc := hcomments hc
  rw [comments_eq h] at hc
  obtain ⟨-, hlex, -⟩ := of_success h
  obtain ⟨-, text, hchars, -⟩ :=
    Lexing.forall_mem_comments (Lexing.lexed_of_errors_eq_nil hlex) _ _ _ c hc
  exact detect?_comment ⟨text, hchars⟩ level

/-- In what a scene is printed as, the same locale is detected as in its text. -/
theorem detect?_layout (h : ofText o text = success locale s tokens) :
    Locale.detect? s.layout.toList = Locale.detect? (o.source text) := by
  rw [toList_layout h, detect?_sheetChars, Scene.sheet, sortByOffset_comments h, Scene.passages]
  cases hpages : s.pages with
  | nil =>
    rw [detect?_source_of_nil h hpages]
    exact findSome?_comments h (List.Subset.refl _) 0
  | cons p pages =>
    have hp : p ∈ s.pages := hpages ▸ List.mem_cons_self
    obtain ⟨rows, hreads, -, hwritten⟩ := exists_written_rows h
    have hhead := Page.detect?_lines (hwritten _ (hreads.headRow_mem hp))
    -- the comments that are printed above the page are those that come before
    -- its keyword in the text
    have habove : (s.comments.map Comment.token).takeWhile (·.line < p.headPassage.line) =
        (s.comments.map Comment.token).filter (·.offset < p.keyword.offset) := by
      rw [(inOrder_comments h).filter_eq_takeWhile]
      exact takeWhile_congr fun c hc => decide_eq_decide.2 (line_lt_iff h hp hc)
    have hrows : p.headPassage.rows.flatMap LaidRow.lines = LaidRow.lines ⟨0, p.headRow⟩ :=
      List.flatMap_singleton ..
    have hfirst : s.pages.head? = some p := by
      rw [hpages]
      rfl
    rw [detect?_source h hfirst, List.flatMap_cons, Page.passages, List.cons_append, arrange,
      habove, List.append_assoc, List.findSome?_append,
      findSome?_comments h List.filter_sublist.subset _]
    congr 1
    rw [List.findSome?_append]
    exact (congrArg (Option.or · _) (hrows ▸ hhead)).trans Option.some_or

/-! ## The round trip -/

/-- A layout is empty, or its last line is ended. -/
theorem source_layout (h : ofText o text = success locale s tokens) :
    o.source s.layout.toList = s.layout.toList := by
  rw [toList_layout h]
  rcases List.eq_nil_or_concat s.sheet with hnil | ⟨sheet, line, hsheet⟩
  · rw [hnil]
    exact o.source_nil
  · refine o.source_eq ?_
    rw [hsheet, List.concat_eq_append, sheetChars, List.flatMap_append, List.flatMap_singleton,
      ← List.append_assoc, List.getLast?_concat]

/-- A printed scene has the locale that it was read in. -/
theorem locale?_layout (h : ofText o text = success locale s tokens) :
    o.locale? s.layout.toList = some locale := by
  have hlocale := (of_success h).1
  rw [ReadingOptions.locale?] at hlocale ⊢
  cases hpreference : o.locale with
  | fixed => rwa [hpreference] at hlocale
  | auto =>
    rw [hpreference] at hlocale
    exact (detect?_layout h).trans hlocale

/-- A scene that is printed, if its captions fit, is read again to essentially the same scene, and
    printed in the same way again. -/
theorem ofText_layout (h : ofText o text = success locale s tokens)
    (hfit : CaptionsFit locale tokens) :
    ∃ s' tokens', ofText o s.layout.toList = success locale s' tokens' ∧
      s'.essence = s.essence ∧ s'.layout = s.layout := by
  obtain ⟨s', tokens', hread, hsame⟩ := reread_inLocale h hfit o.errorLimit
  have hsource := source_layout h
  refine ⟨s', tokens', ?_, hsame⟩
  rw [ofText_eq_inLocale (hsource ▸ locale?_layout h), hsource]
  exact hread

/-- A keyword in capitals with a tab in it, a comment at the end of its line, free text with
    blanks around it and a slash in it, an indent that is not kept, blank lines, and a last
    line that is not ended. -/
theorem ofText_layout_login : ∃ s tokens s' tokens',
    ofText .standard
      ("MOBILE\t screen:  My page // draft\nblock:\n \"x\"\n list a/b \n consists of\n".toList ++
      " link\n\n\n button\t b c  ".toList) = success .english s tokens ∧
      CaptionsFit .english tokens ∧ ofText .standard s.layout.toList = success .english s' tokens' ∧
      s'.essence = s.essence ∧ s'.layout = s.layout := by
  let text :=
    "MOBILE\t screen:  My page // draft\nblock:\n \"x\"\n list a/b \n consists of\n".toList ++
    " link\n\n\n button\t b c  ".toList
  have hsuccess : (ofText .standard text).isSuccess = true := by decide +kernel
  have hlocale : (ofText .standard text).locale? = some .english := by decide +kernel
  have hfit : ∀ tokens ∈ (ofText .standard text).tokens?, CaptionsFit .english tokens := by
    decide +kernel
  obtain ⟨locale, s, tokens, hread⟩ := exists_of_isSuccess hsuccess
  rw [hread] at hlocale hfit
  obtain rfl := Option.some.inj hlocale
  obtain ⟨s', tokens', hagain, hsame⟩ := ofText_layout hread (hfit tokens rfl)
  exact ⟨s, tokens, s', tokens', hread, hfit tokens rfl, hagain, hsame⟩

/-- Free text loses a blank after its last slash when it is printed, and the
    slash does not read back. -/
theorem not_ofText_layout :
    ¬ ∀ (o : ReadingOptions) (text : List Char) (locale : Locale) (s : Scene)
    (tokens : List Token), o.endsLastLine = true → ofText o text = success locale s tokens →
      ∃ s' tokens', ofText o s.layout.toList = success locale s' tokens' ∧
        s'.essence = s.essence ∧ s'.layout = s.layout := by
  intro h
  have hsuccess : (ofText .standard "Page: A\nBlock: B\nButton a/ \n".toList).isSuccess = true := by
    decide +kernel
  have hprinted : ((ofText .standard "Page: A\nBlock: B\nButton a/ \n".toList).scene?.map
      fun s => (ofText .standard s.layout.toList).isSuccess) = some false := by
    decide +kernel
  obtain ⟨locale, s, tokens, hread⟩ := exists_of_isSuccess hsuccess
  obtain ⟨s', tokens', hagain, -⟩ := h _ _ _ _ _ rfl hread
  rw [hread] at hprinted
  have hfails : (ofText .standard s.layout.toList).isSuccess = false := Option.some.inj hprinted
  rw [hagain] at hfails
  exact Bool.noConfusion hfails

end Reading

end Wireframe
