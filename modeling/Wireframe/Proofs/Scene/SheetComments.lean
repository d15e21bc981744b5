import Wireframe.Proofs.Scene.Reprinted
import Wireframe.Proofs.Token.Slashes

/-!
# The comments of a printed scene

Whatever becomes of its captions, a printed scene is lexed to its own comments
(`Reading.stamps_comments_layout`). A sheet is lexed line by line, so it is enough that no line of
words gives rise to a comment. A line without free text reads back as it is. In a line with free
text there are keywords beside it, and nowhere are there two slashes next to each other, which a
comment would begin with.
-/

namespace Wireframe

open Text

/-! ## Texts without a comment -/

/-- Two characters that are not both slashes. -/
def NotSlashes (c d : Char) : Prop :=
  ¬ (c = '/' ∧ d = '/')

/-- Where no slashes are next to each other, there is no comment. -/
theorem Lexing.comments_eq_nil {text : List Char} (h : text.IsChain NotSlashes) (locale : Locale) :
    (ofText locale text).comments = [] := by
  have hseg := isSegmented_segmentsOf locale text
  rw [hseg.comments_eq, List.filterMap_eq_nil_iff]
  intro segment hsegment
  cases segment with
  | comment c =>
    obtain ⟨before, after, hsplit⟩ := List.append_of_mem hsegment
    have hlexeme := (hseg.splits_at hsplit).lexemeAt?_eq
    -- a comment begins with two slashes, and it is a part of the text
    rw [hseg.kind_comment c hsegment] at hlexeme
    obtain ⟨tail, hchars, -⟩ := exists_of_comment hlexeme
    have hpart : c.chars <:+: text := by
      rw [← hseg.splits.flatMap_image]
      exact List.infix_of_mem_flatten
        (List.mem_map_of_mem (f := Piece.image) (List.mem_map_of_mem hsegment))
    have hchain := h.infix hpart
    rw [show c.chars = _ from hchars, List.isChain_cons_cons] at hchain
    exact absurd ⟨rfl, rfl⟩ hchain.1
  | _ => rfl

/-- No slashes are next to each other in free text. -/
theorem FreeRun.isChain {text : List Char} (h : FreeRun text) : text.IsChain NotSlashes := by
  induction h with
  | nil => exact .nil
  | char hc _ ih => exact List.isChain_cons.2 ⟨fun _ _ hboth => ne_slash_of_isFree hc hboth.1, ih⟩
  | slash hc _ ih =>
    refine List.isChain_cons_cons.2 ⟨fun hboth => ne_slash_of_isFree hc hboth.2, ?_⟩
    exact List.isChain_cons.2 ⟨fun _ _ hboth => ne_slash_of_isFree hc hboth.1, ih⟩

theorem isChain_of_notMem {text : List Char} (h : '/' ∉ text) : text.IsChain NotSlashes :=
  List.Pairwise.isChain (List.pairwise_of_forall_mem_list fun _ hc _ _ hboth => h (hboth.1 ▸ hc))

/-- Texts are put together without slashes next to each other where the first one has none. -/
theorem isChain_append_of_notMem {front back : List Char} (hfront : '/' ∉ front)
    (hback : back.IsChain NotSlashes) : (front ++ back).IsChain NotSlashes :=
  List.isChain_append.2 ⟨isChain_of_notMem hfront, hback,
    fun _ hc _ _ hboth => hfront (hboth.1 ▸ List.mem_of_mem_getLast? hc)⟩

/-- Another character can come between texts. -/
theorem isChain_append_cons {front back : List Char} {d : Char} (hd : d ≠ '/')
    (hfront : front.IsChain NotSlashes) (hback : back.IsChain NotSlashes) :
    (front ++ d :: back).IsChain NotSlashes :=
  List.isChain_append.2 ⟨hfront, List.isChain_cons.2 ⟨fun _ _ hboth => hd hboth.1, hback⟩,
    fun _ _ _ he hboth => hd ((Option.some.inj he).trans hboth.2)⟩

section Lines

variable {locale : Locale} {t : Token} {words : List Token}

/-- There is no slash in a keyword, and none next to another one in free text. -/
theorem Token.IsLexeme.isChain_shown (h : t.IsLexeme locale)
    (hkind : t.kind.isWord ∨ t.kind = .freeText) : t.shown.IsChain NotSlashes := by
  obtain ⟨rest, h⟩ := h
  rcases hkind with hword | hfree
  · obtain ⟨u, hu, f, hf, -, hspelling, -⟩ := exists_form_of_shown h hword
    have hplain := (WordForm.spaced (Locale.isOrderly_of_mem (Locale.mem_forms hu hf))).plain
    refine isChain_of_notMem fun hmem => ?_
    -- all that is shown of a keyword is a single space or a character that a form reads
    rcases hspelling.squeezed_self.not_unread hplain '/' hmem with hgap | hread
    · exact absurd hgap (by decide)
    · exact hread (isUnread_of_mem (by decide)).1
  · obtain ⟨-, ⟨n, hchars⟩, -⟩ := exists_caption h hfree
    have hrun := (freeRun_of_freeText (hfree ▸ h)).2.1.isChain
    rw [hchars] at hrun
    exact hrun.left_of_append

theorem isChain_lineChars (h : ∀ t ∈ words, t.shown.IsChain NotSlashes ∧ t.kind ≠ .comma) :
    (lineChars words).IsChain NotSlashes := by
  induction words with
  | nil => exact .nil
  | cons t words ih =>
    obtain ⟨⟨ht, -⟩, hwords⟩ := List.forall_mem_cons.1 h
    cases words with
    | nil => exact ht
    | cons u words =>
      rw [lineChars, if_neg (hwords u List.mem_cons_self).2]
      exact isChain_append_cons (by decide) ht (ih hwords)

theorem lineFeed_notMem_lineChars (h : ∀ t ∈ words, '\n' ∉ t.shown) : '\n' ∉ lineChars words := by
  induction words with
  | nil => exact List.not_mem_nil
  | cons t words ih =>
    obtain ⟨ht, hwords⟩ := List.forall_mem_cons.1 h
    cases words with
    | nil => exact ht
    | cons u words =>
      rw [lineChars, List.mem_append, List.mem_append, not_or, not_or]
      refine ⟨ht, ?_, ih hwords⟩
      split <;> simp

end Lines

/-! ## Lines of a sheet -/

/-- Lexed by itself, a line gives its own comment and no other, whatever becomes of its words. -/
structure SheetLine.KeepsComment (locale : Locale) (line : SheetLine) : Prop where
  lineFeed : '\n' ∉ line.chars
  comments : (Lexing.ofText locale (line.chars ++ ['\n'])).comments.map Token.stamp =
    comments (line, 1)

section Sheet

variable {locale : Locale}

theorem SheetLine.IsSet.keepsComment {line : SheetLine} (h : line.IsSet locale) :
    line.KeepsComment locale := by
  obtain ⟨hstamped, hfeed⟩ := Lexing.stamped_line h
  exact ⟨hfeed, hstamped.comments⟩

/-- A line of keywords and free text gives no comment. -/
theorem SheetLine.keepsComment_words {words : List Token} (level : Nat)
    (hlexeme : ∀ t ∈ words, t.IsLexeme locale) (hprinted : ∀ t ∈ words, t.IsPrinted)
    (hkind : ∀ t ∈ words, t.kind.isWord ∨ t.kind = .freeText) :
    (SheetLine.words level words).KeepsComment locale := by
  cases words with
  | nil => exact (IsSet.blank level).keepsComment
  | cons t words =>
    have hfeed := lineFeed_notMem_lineChars fun t ht =>
      (hlexeme t ht).lineFeed_notMem (hprinted t ht)
    have hchain := isChain_lineChars fun t ht => ⟨(hlexeme t ht).isChain_shown (hkind t ht),
      (hkind t ht).elim (fun hword hcomma => by rw [hcomma] at hword; cases hword)
        fun hfree hcomma => by rw [hcomma] at hfree; cases hfree⟩
    have hspaces {c : Char} (hc : c ≠ ' ') : c ∉ List.replicate (4 * level) ' ' := fun hmem =>
      hc (List.mem_replicate.1 hmem).2
    have hline := isChain_append_of_notMem (hspaces (by decide)) hchain
    refine ⟨not_or.2 ⟨hspaces (by decide), hfeed⟩ ∘ List.mem_append.1, ?_⟩
    rw [chars, Lexing.comments_eq_nil (isChain_append_cons (by decide) hline .nil) locale]
    rfl

/-- A sheet is lexed to its own comments, if each of its lines is. -/
theorem Lexing.comments_sheet {sheet : List SheetLine} (h : ∀ l ∈ sheet, l.KeepsComment locale) :
    (ofText locale (sheetChars sheet)).comments.map Token.stamp =
      (sheet.zipIdx 1).flatMap SheetLine.comments := by
  induction sheet with
  | nil => exact (@ofText_sheet locale [] (List.forall_mem_nil _)).comments
  | cons l sheet ih =>
    obtain ⟨hl, hsheet⟩ := List.forall_mem_cons.1 h
    rw [ofText_sheet_cons locale hl.lineFeed, append, List.map_append, hl.comments]
    exact congrArg _ (map_stamp_moved comments_succ (ih hsheet) _)

/-! ## Rows with free text -/

theorem TokenKind.ne_freeText_of_isWord {kind : TokenKind} (h : kind.isWord) :
    kind ≠ .freeText := by
  rintro rfl
  cases h

/-- Beside a title, which is free text or not, there are only keywords. -/
theorem Value.freeText_or {title : Option Value} {words : List Token}
    (htitle : ∀ v ∈ title, v.IsWellFormed)
    (hwords : ∀ t ∈ words, t.kind.isWord ∨ t ∈ title.toList.map Value.token) :
    (∀ t ∈ words, t.kind ≠ .freeText) ∨ ∀ t ∈ words, t.kind.isWord ∨ t.kind = .freeText := by
  by_cases hfree : ∀ t ∈ title.toList.map Value.token, t.kind = .freeText
  · exact .inr fun t ht => (hwords t ht).imp_right (hfree t)
  · obtain ⟨v, hv, hne⟩ : ∃ v ∈ title, v.token.kind ≠ .freeText := by simpa using hfree
    refine .inl fun t ht => (hwords t ht).elim TokenKind.ne_freeText_of_isWord fun hmem => ?_
    obtain rfl : title = some v := hv
    exact List.mem_singleton.1 hmem ▸ hne

theorem Literal.IsWellFormed.ne_freeText {l : Literal} (h : l.IsWellFormed) :
    l.token.kind ≠ .freeText := by
  rw [show l.token.kind = l.kind from h]
  cases l <;> exact nofun

theorem Direction.IsWellFormed.ne_freeText {d : Direction} (h : d.IsWellFormed) :
    ∀ t ∈ d.words, t.kind ≠ .freeText := by
  refine List.forall_mem_append.2 ⟨List.forall_mem_map.2 fun c hc => ?_, ?_⟩
  · obtain ⟨-, hkind | ⟨n, hkind⟩⟩ := (h.count c (Option.mem_toList.1 hc)).kind <;>
      exact hkind ▸ nofun
  · exact List.forall_mem_singleton.2 (h.keyword ▸ nofun)

theorem Alignment.IsWellFormed.ne_freeText {a : Alignment} (h : a.IsWellFormed) :
    ∀ t ∈ a.words, t.kind ≠ .freeText := by
  refine List.forall_mem_append.2 ⟨List.forall_mem_cons.2 ⟨h.keyword ▸ nofun, fun t ht => ?_⟩,
    List.forall_mem_cons.2 ⟨h.aligned ▸ nofun, h.direction.ne_freeText⟩⟩
  rcases List.mem_append.1 ((separated_perm _ _).subset ht) with ht | ht
  · obtain ⟨l, hl, rfl⟩ := List.mem_map.1 ht
    exact (h.names l hl).ne_freeText
  · exact h.commas t ht ▸ nofun

/-- There are only keywords in a row beside free text. -/
theorem Row.IsWellFormed.freeText_or {r : Row} (h : r.IsWellFormed) :
    (∀ t ∈ r.words, t.kind ≠ .freeText) ∨ ∀ t ∈ r.words, t.kind.isWord ∨ t.kind = .freeText := by
  -- a keyword before a title, and perhaps one after it
  have htitled {k : Token} {name : Keyword} {title : Option Value} {more : List Token}
      (hk : k.kind = .keyword name) (htitle : ∀ v ∈ title, v.IsWellFormed)
      (hmore : ∀ t ∈ more, t.kind.isWord) :
      (∀ t ∈ k :: title.toList.map Value.token ++ more, t.kind ≠ .freeText) ∨
        ∀ t ∈ k :: title.toList.map Value.token ++ more, t.kind.isWord ∨ t.kind = .freeText := by
    refine Value.freeText_or htitle fun t ht => ?_
    rcases List.mem_append.1 ht with ht | ht
    · exact (List.mem_cons.1 ht).imp_left fun heq : t = k => heq ▸ Token.isWord_of_keyword hk
    · exact .inl (hmore t ht)
  cases r with
  | blank e => exact .inl (List.forall_mem_nil _)
  | page device k title e =>
    obtain ⟨hdevice, hk, htitle, -⟩ := h
    have hwords : (page device k title e).words =
        device.toList.map DeviceTag.token ++ [k, title.token] := List.append_nil _
    have htitles : ∀ v ∈ some title, v.IsWellFormed := fun v hv => Option.some.inj hv ▸ htitle
    rw [hwords]
    refine Value.freeText_or htitles
      (List.forall_mem_append.2 ⟨List.forall_mem_map.2 fun d hd => .inl ?_, ?_⟩)
    · exact Token.isWord_of_keyword (hdevice d (Option.mem_toList.1 hd))
    · exact List.forall_mem_cons.2 ⟨.inl (Token.isWord_of_keyword hk),
        List.forall_mem_singleton.2 (.inr List.mem_cons_self)⟩
  | alignment a =>
    have hwords : (alignment a).words = a.words := List.append_nil _
    exact .inl (hwords ▸ Alignment.IsWellFormed.ne_freeText h)
  | block k title e => exact htitled h.1 h.2.1 (List.forall_mem_nil _)
  | direction d =>
    have hwords : (direction d).words = d.words := List.append_nil _
    exact .inl (hwords ▸ Direction.IsWellFormed.ne_freeText h)
  | list k title headerEnd c e =>
    obtain ⟨hk, htitle, -, hc, -⟩ := h
    have hwords : (list k title headerEnd c e).words =
        k :: title.toList.map Value.token ++ [c] := by
      cases headerEnd
      · exact List.append_nil _
      · rfl
    exact hwords ▸ htitled hk htitle (List.forall_mem_singleton.2 (Token.isWord_of_keyword hc))
  | item i =>
    obtain ⟨hcontent, -⟩ := h
    obtain ⟨⟨kind, k, value⟩ | l, e⟩ := i
    · exact htitled hcontent.1 hcontent.2 (List.forall_mem_nil _)
    · exact .inl (List.forall_mem_singleton.2 (Literal.IsWellFormed.ne_freeText hcontent))

/-- The lines of a row that was written give no comment. -/
theorem Row.IsWritten.keepsComment {r : LaidRow} (h : r.row.IsWritten locale) :
    ∀ line ∈ r.lines, line.KeepsComment locale := by
  have hwords {l : WordLine} (hl : l ∈ r.row.lines) {t : Token} (ht : t ∈ l.words) :
      t ∈ r.row.words := List.mem_flatMap.2 ⟨l, hl, ht⟩
  rcases h.wellFormed.freeText_or with hnone | honly
  -- without free text, nothing can be read in another way than it was
  · have hleaves : ∀ t ∈ r.row.leaves, t.kind ≠ .freeText := by
      rw [Row.leaves_eq_lines]
      refine List.forall_mem_flatMap.2 fun l hl => List.forall_mem_append.2 ⟨?_, ?_⟩
      · exact fun t ht => hnone t (hwords hl ht)
      · exact List.forall_mem_singleton.2 (by rw [(h.wellFormed.lines l hl).2]; exact nofun)
    have hfits : r.row.leaves.IsChain (Token.Fits locale) :=
      List.Pairwise.isChain (List.pairwise_of_forall_mem_list fun t ht u hu =>
        ⟨fun hkind => absurd hkind (hleaves t ht), fun hkind => absurd hkind (hleaves u hu)⟩)
    exact fun line hline =>
      (h.isSet (fun t ht hkind => absurd hkind (hleaves t ht)) hfits line hline).keepsComment
  · intro line hline
    obtain ⟨i, hi, rfl⟩ := List.mem_mapIdx.1 hline
    have hl : r.row.lines[i] ∈ r.row.lines := List.getElem_mem hi
    exact SheetLine.keepsComment_words _ (h.isLexeme _ hl) (h.wellFormed.lines _ hl).1
      fun t ht => honly t (hwords hl ht)

end Sheet

/-- A printed scene is lexed to its own comments, each on the line that it was printed on. -/
theorem Reading.stamps_comments_layout {o : ReadingOptions} {text : List Char} {locale : Locale}
    {s : Scene} {tokens : List Token} (h : ofText o text = success locale s tokens) :
    (∀ line ∈ s.sheet, '\n' ∉ line.chars) ∧
      (Lexing.ofText locale s.layout.toList).comments.map Token.stamp =
        (s.sheet.zipIdx 1).flatMap SheetLine.comments := by
  have hsheet : ∀ line ∈ s.sheet, line.KeepsComment locale := by
    obtain ⟨rows, hreads, -, hwritten⟩ := exists_written_rows h
    refine forall_mem_arrange (fun level c hc => (isSet_comment h hc level).keepsComment)
      fun p hp r hr => ?_
    exact (hreads.forall_laid Row.isWritten_blank hwritten _ (s.mem_rowsOf_laid hp hr)).keepsComment
  rw [toList_layout h]
  exact ⟨fun line hline => (hsheet line hline).lineFeed, Lexing.comments_sheet hsheet⟩

end Wireframe
