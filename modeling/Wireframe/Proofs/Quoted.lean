import Wireframe.Proofs.Reading
import Wireframe.Proofs.Scene.Items
import Wireframe.Proofs.Token.Quoting

/-!
# Widgets with quoted values

Wherever a scene has a line with a widget, any text of one line can be shown there, quoted as the
value of a widget (`quote_spec`): the line is lexed to the keyword and the quotation
(`WidgetLine.exists_tokens`), the scene goes on after it as before (`Stage.run?_widget`), and the
locale is settled before it (`Stage.exists_page_of_run`).
-/

namespace Wireframe

open Text

/-! ## The line -/

/-- What stands on a line before the value of a widget. -/
structure WidgetLine (locale : Locale) where
  kind : Widget
  indent : List Char
  word : List Char
  gap : List Char
  indent_gaps : ∀ c ∈ indent, isGap c
  word_spells : locale.dictionary.SpellsWord (.keyword kind.keyword) word
  gap_gaps : ∀ c ∈ gap, isGap c

/-- What is lexed is a line with a widget. -/
def Lexing.IsWidget (l : Lexing) : Prop :=
  l.errors = [] ∧ ∃ i : Item, i.IsWellFormed ∧ i.kind?.isSome ∧ l.tokens = i.leaves

namespace WidgetLine

variable {locale : Locale} (l : WidgetLine locale)

/-- The line with a quoted text as the value. -/
def chars (text : List Char) : List Char :=
  l.indent ++ (l.word ++ (l.gap ++ (quote text ++ ['\n'])))

/-- The line as lexemes. -/
def lexemes (text : List Char) : List (TokenKind × List Char) :=
  gapLexemes l.indent ++ (.keyword l.kind.keyword, l.word) ::
    (gapLexemes l.gap ++ [(.quotation, quote text), (.lineEnd, ['\n'])])

variable {text : List Char}

theorem cut_chars (htext : ∀ c ∈ text, Shape.isBreak c = false) :
    cut locale.regularTerminals (l.chars text) = (l.lexemes text).map lexemePiece := by
  have hword : lexemeAt? locale.regularTerminals (l.word ++ (l.gap ++ (quote text ++ ['\n']))) =
      some (.keyword l.kind.keyword, l.word.length) :=
    Locale.lexemeAt?_word l.word_spells l.gap_gaps (by
      rintro _ ⟨⟩
      exact ⟨⟨by decide, by decide⟩, by decide⟩)
  have hgap : cut locale.regularTerminals (l.gap ++ (quote text ++ ['\n'])) =
      (gapLexemes l.gap).map lexemePiece ++ cut locale.regularTerminals (quote text ++ ['\n']) :=
    cut_gaps l.gap_gaps (by decide) (by decide) _
  rw [chars, cut_gaps_word l.indent_gaps l.word_spells, cut_append hword, hgap,
    cut_append (lexemeAt?_quote locale htext _), cut_lineFeed]
  simp [lexemes, lexemePiece]

/-- The keyword stands after the indent. -/
theorem keyword_mem_tokens (htext : ∀ c ∈ text, Shape.isBreak c = false) :
    ⟨.keyword l.kind.keyword, String.ofList l.word,
        .ofText (byteLength l.indent) (Position.start.advance l.indent) l.word⟩ ∈
      (Lexing.ofText locale (l.chars text)).tokens := by
  have hword : (TokenKind.keyword l.kind.keyword).isWord := rfl
  have hmem := Lexing.mem_tokens_of_word hword l.word ((gapLexemes l.indent).map lexemePiece)
    ((gapLexemes l.gap ++ [(TokenKind.quotation, quote text), (.lineEnd, ['\n'])]).map lexemePiece)
  rw [flatMap_image_gapLexemes] at hmem
  rw [Lexing.ofText, Locale.pieces, l.cut_chars htext, lexemes, List.map_append]
  exact hmem

/-- The line is lexed to the keyword, the quotation and the line end. -/
theorem exists_tokens (htext : ∀ c ∈ text, Shape.isBreak c = false) : ∃ k v e,
    Lexing.ofText locale (l.chars text) = ⟨[k, v, e], [], []⟩ ∧
      Item.IsWellFormed ⟨.widget l.kind k (some (.quotation v)), e⟩ ∧
      k.offset = byteLength l.indent ∧ v.chars = quote text := by
  have hgaps : ∀ blanks, ∀ lexeme ∈ gapLexemes blanks, lexeme.1 ≠ .comment := by
    rintro (_ | ⟨b, blanks⟩) lexeme h
    · cases h
    · rw [List.mem_singleton.1 h]
      simp
  have hkinds : ∀ lexeme ∈ l.lexemes text, lexeme.1 ≠ .comment :=
    List.forall_mem_append.2 ⟨hgaps _, List.forall_mem_cons.2
      ⟨by simp, List.forall_mem_append.2 ⟨hgaps _, by simp⟩⟩⟩
  have hfresh : LineState.fresh.isComment = false := rfl
  obtain ⟨tokens, hsift, htokens⟩ := Lexing.sift_lexemes hkinds hfresh 0 .start
  have hlexing : Lexing.ofText locale (l.chars text) = ⟨tokens, [], []⟩ := by
    rw [Lexing.ofText, Locale.pieces, l.cut_chars htext, Lexing.ofPieces, hsift]
  rw [lexemes, List.filter_append, filter_gapLexemes, List.filter_cons_of_pos (by simp),
    List.filter_append, filter_gapLexemes] at htokens
  obtain ⟨k, _, rfl, hk, hmore⟩ := List.map_eq_cons_iff.1 htokens
  obtain ⟨v, _, rfl, hv, hmore⟩ := List.map_eq_cons_iff.1 hmore
  obtain ⟨e, _, rfl, he, hmore⟩ := List.map_eq_cons_iff.1 hmore
  obtain rfl := List.map_eq_nil_iff.1 hmore
  have hitem : Item.IsWellFormed ⟨.widget l.kind k (some (.quotation v)), e⟩ := by
    refine ⟨⟨(Prod.mk.inj hk).1, fun w hw => ?_⟩, (Prod.mk.inj he).1⟩
    obtain rfl := Option.some.inj hw
    exact (Prod.mk.inj hv).1
  refine ⟨k, v, e, hlexing, hitem, ?_, (Prod.mk.inj hv).2⟩
  -- no other token of the line is a keyword
  have hmem := l.keyword_mem_tokens htext
  rw [hlexing] at hmem
  simp only [List.mem_cons, List.not_mem_nil, or_false] at hmem
  rcases hmem with rfl | rfl | rfl
  · rfl
  · cases hv
  · cases he

theorem isWidget (htext : ∀ c ∈ text, Shape.isBreak c = false) :
    (Lexing.ofText locale (l.chars text)).IsWidget := by
  obtain ⟨k, v, e, hlexing, hitem, -⟩ := l.exists_tokens htext
  rw [hlexing]
  exact ⟨rfl, _, hitem, rfl, rfl⟩

end WidgetLine

/-! ## The line in a scene -/

namespace Stage

variable {σ τ : Stage} {kind : Widget}

/-- The keyword of a widget can only come at the beginning of a line in a block. -/
theorem after?_widget (σ : Stage) (kind : Widget) :
    σ.after? (.keyword kind.keyword) = if σ = line .block then some keyword else none := by
  cases σ with
  | line place => cases place <;> cases kind <;> rfl
  | ended place => cases kind <;> rfl
  | counted place => cases kind <;> rfl
  | _ => cases kind <;> rfl

/-- A line with a widget can only come in a block, and the block goes on after it. -/
theorem run?_widget {i : Item} (hi : i.IsWellFormed) (hwidget : i.kind?.isSome) (σ : Stage) :
    σ.run? i.leaves = if σ = line .block then some (line .block) else none := by
  obtain ⟨content, e⟩ := i
  obtain ⟨hcontent, he⟩ := hi
  replace he : e.kind = .lineEnd := he
  cases content with
  | literal => cases hwidget
  | widget kind k value =>
    obtain ⟨hk, hvalue⟩ := hcontent
    have hstep : σ.step? k = if σ = line .block then some keyword else none := by
      rw [step?_of_kind (by simp [hk]), hk, after?_widget]
    have hend {ρ : Stage} (hρ : ρ.after? .lineEnd = some (line .block)) :
        ρ.run? [e] = some (line .block) := by
      rw [run?_cons, step?_of_kind (by simp [he]), he, hρ]
      rfl
    have hrest : keyword.run? (value.toList.map Value.token ++ [e]) = some (line .block) := by
      cases value with
      | none => exact hend rfl
      | some v =>
        have hv : v.token.kind = v.kind := hvalue v rfl
        have hvalueStep : keyword.step? v.token = some (ended .block) := by
          rw [step?_of_kind (by rw [hv]; cases v <;> exact nofun), hv]
          cases v <;> rfl
        exact (run?_eq_some_cons hvalueStep [e]).trans (hend rfl)
    change σ.run? (k :: (value.toList.map Value.token ++ [e])) = _
    rw [run?_cons, hstep]
    split
    · exact hrest
    · rfl

/-- Without the keyword of a page, a scene does not get beyond the device of one. -/
theorem eq_outside_or_device {tokens : List Token} (hpage : ∀ t ∈ tokens, t.kind ≠ .keyword .page)
    {σ τ : Stage} (hσ : σ = line .outside ∨ σ = device) (h : σ.run? tokens = some τ) :
    τ = line .outside ∨ τ = device := by
  induction tokens generalizing σ with
  | nil => exact Option.some.inj h ▸ hσ
  | cons t tokens ih =>
    obtain ⟨ht, htokens⟩ := List.forall_mem_cons.1 hpage
    obtain ⟨ρ, hstep, hrun⟩ := Option.bind_eq_some_iff.1 ((run?_cons ..).symm.trans h)
    refine ih htokens ?_ hrun
    have hafter : σ.after? t.kind = some ρ := by
      rw [step?] at hstep
      split at hstep
      · exact hstep
      · cases hstep
    rcases hσ with rfl | rfl
    · rw [after?, sceneLine?, if_neg ht] at hafter
      split at hafter
      · exact .inl (Option.some.inj hafter).symm
      · split at hafter
        · exact .inr (Option.some.inj hafter).symm
        · cases hafter
    · rw [after?, if_neg ht] at hafter
      cases hafter

/-- What leads into a block has the keyword of a page. -/
theorem exists_page_of_run {tokens : List Token}
    (h : (line .outside).run? tokens = some (line .block)) :
    ∃ t ∈ tokens, t.kind = .keyword .page := by
  by_contra hnone
  have hpage : ∀ t ∈ tokens, t.kind ≠ .keyword .page := fun t ht hkind => hnone ⟨t, ht, hkind⟩
  rcases eq_outside_or_device hpage (.inl rfl) h with h | h <;> cases h

end Stage

/-! ## The line in a text -/

section Reading

variable {o : ReadingOptions} {locale : Locale} {before line after : List Char}

/-- A text with a line in it is lexed like its parts. -/
theorem Lexing.ofText_between (locale : Locale)
    (hbefore : before = [] ∨ before.getLast? = some '\n') (hline : line.getLast? = some '\n')
    (after : List Char) :
    ofText locale (before ++ (line ++ after)) = (ofText locale before).append
      (((ofText locale line).append ((ofText locale after).moved (byteLength line)
        (line.count '\n'))).moved (byteLength before) (before.count '\n')) := by
  rw [ofText_lines locale hbefore, ofText_lines locale (.inr hline)]

/-- The lexing has errors where one of its parts has. -/
theorem Lexing.errors_between_iff (hbefore : before = [] ∨ before.getLast? = some '\n')
    (hline : line.getLast? = some '\n') :
    (ofText locale (before ++ (line ++ after))).errors = [] ↔ (ofText locale before).errors = [] ∧
      (ofText locale line).errors = [] ∧ (ofText locale after).errors = [] := by
  rw [ofText_between locale hbefore hline]
  simp [append, moved]

/-- A scene goes from part to part of a text. -/
theorem Stage.run?_between (hbefore : before = [] ∨ before.getLast? = some '\n')
    (hline : line.getLast? = some '\n') (σ : Stage) :
    σ.run? (Lexing.ofText locale (before ++ (line ++ after))).tokens =
      (σ.run? (Lexing.ofText locale before).tokens).bind fun τ =>
        (τ.run? (Lexing.ofText locale line).tokens).bind fun υ =>
          υ.run? (Lexing.ofText locale after).tokens := by
  rw [Lexing.ofText_between locale hbefore hline, Lexing.append, run?_append]
  refine congrArg _ (funext fun τ => ?_)
  rw [Lexing.moved, run?_map (isRenaming_moved _ _), Lexing.append, run?_append]
  refine congrArg _ (funext fun υ => ?_)
  rw [Lexing.moved, run?_map (isRenaming_moved _ _)]

/-- A line with a widget fits into a text exactly if the text before it comes to a line in a block,
    and the text after it goes on from one. -/
theorem Parsing.errors_between_iff (hbefore : before = [] ∨ before.getLast? = some '\n')
    (hline : line.getLast? = some '\n') {i : Item} (hi : i.IsWellFormed) (hwidget : i.kind?.isSome)
    (htokens : (Lexing.ofText locale line).tokens = i.leaves) (limit : Nat) :
    (ofTokens limit (Lexing.ofText locale (before ++ (line ++ after))).tokens).errors = [] ↔
      (Stage.line .outside).run? (Lexing.ofText locale before).tokens = some (.line .block) ∧
        ∃ place, (Stage.line .block).run? (Lexing.ofText locale after).tokens =
          some (.line place) := by
  rw [errors_eq_nil_iff_run, kept_tokens, Stage.run?_between hbefore hline, htokens]
  constructor
  · rintro ⟨place, hrun⟩
    obtain ⟨σ, hσ, hrun⟩ := Option.bind_eq_some_iff.1 hrun
    obtain ⟨τ, hτ, hrun⟩ := Option.bind_eq_some_iff.1 hrun
    rw [Stage.run?_widget hi hwidget] at hτ
    split at hτ
    · next h =>
      obtain rfl := Option.some.inj hτ
      exact ⟨h ▸ hσ, place, hrun⟩
    · cases hτ
  · rintro ⟨hσ, place, hrun⟩
    refine ⟨place, ?_⟩
    rw [hσ, Option.bind_some, Stage.run?_widget hi hwidget, if_pos rfl, Option.bind_some, hrun]

/-- The locale of a text is settled before a line of a block. -/
theorem ReadingOptions.locale?_before (h : o.locale? (before ++ line) = some locale)
    (hrun : (Stage.line .outside).run? (Lexing.ofText locale before).tokens =
      some (.line .block)) : o.locale? before = some locale := by
  rw [locale?] at h ⊢
  cases hlocale : o.locale with
  | fixed => rwa [hlocale] at h
  | auto =>
    rw [hlocale] at h
    obtain ⟨t, ht, hkind⟩ := Stage.exists_page_of_run hrun
    obtain ⟨found, hfound⟩ := Locale.exists_detect?_eq ht hkind
    have hsame := (Locale.detect?_append_of_some hfound line).symm.trans h
    exact hfound.trans hsame

variable {text old : List Char} {s : Scene} {tokens : List Token}

/-- A line with a quoted value can stand where there is any line with a widget. -/
theorem Reading.ofText_quoted (l : WidgetLine locale) (htext : ∀ c ∈ text, Shape.isBreak c = false)
    (hbefore : before = [] ∨ before.getLast? = some '\n') (hold : old.getLast? = some '\n')
    (hwidget : (Lexing.ofText locale old).IsWidget)
    (hread : ofText o (before ++ (old ++ after)) = .success locale s tokens) : ∃ s' tokens',
      ofText o (before ++ (l.chars text ++ after)) = .success locale s' tokens' ∧
      ∃ k v e, ⟨.widget l.kind k (some (.quotation v)), e⟩ ∈ s'.allItems ∧
        k.offset = byteLength (before ++ l.indent) ∧ v.chars = quote text := by
  have hsource {line : List Char} (hline : line.getLast? = some '\n') :
      o.source (before ++ (line ++ after)) = before ++ (line ++ o.source after) := by
    have hboth : (before ++ line).getLast? = some '\n' := by
      rw [List.getLast?_append, hline]
      rfl
    rw [← List.append_assoc, o.source_append hboth, List.append_assoc]
  have hchars : (l.chars text).getLast? = some '\n' := by
    simp [WidgetLine.chars, List.getLast?_append]
  obtain ⟨hlocale, hlex, rfl, hparse, -⟩ := of_success hread
  rw [hsource hold] at hlocale hlex hparse
  obtain ⟨hlexBefore, -, hlexAfter⟩ := (Lexing.errors_between_iff hbefore hold).1 hlex
  obtain ⟨-, i, hi, hkind, htokens⟩ := hwidget
  obtain ⟨hrun, hrest⟩ := (Parsing.errors_between_iff hbefore hold hi hkind htokens _).1 hparse
  obtain ⟨k, v, e, hline, hitem, hoffset, hv⟩ := l.exists_tokens htext
  have hparse' := (Parsing.errors_between_iff hbefore hchars hitem rfl
    (congrArg Lexing.tokens hline) o.errorLimit).2 ⟨hrun, hrest⟩
  obtain ⟨rows, hreads, -, hwell, hrows⟩ := Parsing.exists_greedy_rows hparse'
  refine ⟨_, _, ofText_eq_success_iff.2 ⟨?_, ?_, rfl, ?_, rfl⟩, ?_⟩
  · rw [hsource hchars]
    exact ReadingOptions.locale?_append (ReadingOptions.locale?_before hlocale hrun) _
  · rw [hsource hchars, Lexing.errors_between_iff hbefore hchars]
    exact ⟨hlexBefore, congrArg Lexing.errors hline, hlexAfter⟩
  · rw [hsource hchars]
    exact hparse'
  · rw [Parsing.kept_tokens, Lexing.ofText_between locale hbefore hchars, hline] at hrows
    have hmem := Row.item_mem_of_tokens hwell hrows hitem.content.1 (hitem.content.2 _ rfl)
    rw [hsource hchars]
    have hall : _ ∈ Row.items rows := List.mem_filterMap.2 ⟨_, hmem, rfl⟩
    rw [hreads.items_eq] at hall
    refine ⟨_, _, _, hall, ?_, hv⟩
    rw [byteLength_append, Nat.add_comm, ← hoffset]
    rfl

end Reading

/-- A text of one line comes back when it is quoted: whatever follows, the first token is the
    quotation, of which values and literals have the text; and a widget can show it, quoted as its
    value, on any line of a scene that a widget can be on. -/
theorem quote_spec {text : List Char} (htext : ∀ c ∈ text, Shape.isBreak c = false) :
    (∀ (locale : Locale) (rest : List Char), ∃ t,
      (Lexing.ofText locale (quote text ++ rest)).tokens.head? = some t ∧ t.kind = .quotation ∧
        t.chars = quote text ∧ (Value.quotation t).text = String.ofList text ∧
        (Literal.quotation t).text = String.ofList text) ∧
    ∀ (o : ReadingOptions) (locale : Locale) (l : WidgetLine locale) (before old after : List Char)
      (s : Scene) (tokens : List Token), (before = [] ∨ before.getLast? = some '\n') →
      old.getLast? = some '\n' → (Lexing.ofText locale old).IsWidget →
      Reading.ofText o (before ++ (old ++ after)) = .success locale s tokens →
      ∃ s' tokens',
        Reading.ofText o (before ++ (l.chars text ++ after)) = .success locale s' tokens' ∧
        ∃ i ∈ s'.allItems, i.kind? = some l.kind ∧ i.text? = some (String.ofList text) ∧
          i.leaves.head?.map Token.offset = some (byteLength (before ++ l.indent)) := by
  have hvalue {t : Token} (ht : t.chars = quote text) :
      String.ofList (quotationText t.chars) = String.ofList text := by
    rw [ht, quotationText_quote]
  constructor
  · intro locale rest
    exact ⟨_, Lexing.head?_tokens_quote locale htext rest, rfl, String.toList_ofList,
      hvalue String.toList_ofList, hvalue String.toList_ofList⟩
  · intro o locale l before old after s tokens hbefore hold hwidget hread
    obtain ⟨s', tokens', hread', k, v, e, hmem, hoffset, hv⟩ :=
      Reading.ofText_quoted l htext hbefore hold hwidget hread
    exact ⟨s', tokens', hread', _, hmem, rfl, congrArg some (hvalue hv), congrArg some hoffset⟩

/-- A backslash before a double quote, and a guillemet, on a line with an indent in the middle of a
    scene. -/
theorem quote_spec_link : (∀ c ∈ ['a', '\\', '"', '»'], Shape.isBreak c = false) ∧
    ∃ s tokens, Reading.ofText .standard ("Page: A\nBlock:\n".toList ++
        ("  link to ".toList ++ quote ['a', '\\', '"', '»'] ++ ['\n'] ++ "Input\n".toList)) =
      .success .english s tokens ∧
      ∃ i ∈ s.allItems, i.kind? = some .button ∧ i.text? = some "a\\\"»" := by
  have htext : ∀ c ∈ ['a', '\\', '"', '»'], Shape.isBreak c = false := by decide
  let l : WidgetLine .english := ⟨.button, "  ".toList, "link to".toList, " ".toList, by decide,
    Dictionary.spellsWord_of_mem (by decide), by decide⟩
  have hread : (Reading.ofText .standard ("Page: A\nBlock:\n".toList ++
      (l.chars [] ++ "Input\n".toList))).isSuccess = true := by decide +kernel
  have hlocale : (Reading.ofText .standard ("Page: A\nBlock:\n".toList ++
      (l.chars [] ++ "Input\n".toList))).locale? = some .english := by decide +kernel
  obtain ⟨locale, s, tokens, hread⟩ := Reading.exists_of_isSuccess hread
  rw [hread] at hlocale
  obtain rfl := Option.some.inj hlocale
  obtain ⟨s', tokens', hread', i, hmem, hkind, htext', -⟩ := (quote_spec htext).2 .standard .english
    l _ _ _ _ _ (.inr rfl) rfl (l.isWidget (List.forall_mem_nil _)) hread
  exact ⟨htext, s', tokens', hread', i, hmem, hkind, htext'⟩

end Wireframe
