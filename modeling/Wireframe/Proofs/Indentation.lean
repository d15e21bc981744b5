import Wireframe.Proofs.Detection
import Wireframe.Proofs.Token.Unambiguous
import Wireframe.Proofs.View

/-!
# Indentation

The spaces and tabs that a line begins with mean nothing. They are blanks, which are dropped, or
part of a line end, of which only the line is seen.

* `lexemeAt?_blanks`: blanks are a lexeme, all that are there, unless they are part of a line end.
* `Reindented.alike`: so two texts that differ in the margins of their lines only are cut into the
  same pieces, up to those blanks and the images of line ends.
* `Reading.viewed_reindented`: they are read alike, up to columns.
-/

namespace Wireframe

open Text

/-! ## Blanks -/

theorem isLineTail_of_isGap {c : Char} (h : isGap c = true) : Shape.isLineTail c = true := by
  rw [isGap, Bool.or_eq_true] at h
  rw [Shape.isLineTail, Bool.or_eq_true, Bool.or_eq_true]
  exact .inl h

theorem isInnerBlank_of_isGap {c : Char} (h : isGap c = true) : isInnerBlank c = true := by
  simp only [isGap, Bool.or_eq_true, decide_eq_true_eq] at h
  rcases h with rfl | rfl <;> decide

section Blanks

variable {margin text : List Char}

/-- What is before a line break anyway can be put in front of a line end. -/
theorem lineEndLength?_margin (h : ∀ c ∈ margin, Shape.isLineTail c = true) :
    Shape.lineEndLength? (margin ++ text) =
      (Shape.lineEndLength? text).map (margin.length + ·) := by
  have htail : (margin ++ text).takeWhile Shape.isLineTail =
      margin ++ text.takeWhile Shape.isLineTail := List.takeWhile_append_of_pos h
  rw [Shape.lineEndLength?, Shape.lineEndLength?, htail, List.length_append, ← List.drop_drop,
    List.drop_left, Option.map_map]
  congr 1
  funext m
  simp only [Function.comp_apply]
  omega

/-- Blanks that do not begin a line end are a lexeme, as many as there are. -/
theorem lexemeAt?_blanks (locale : Locale) (hend : Shape.lineEndLength? text = none)
    (hpos : Shape.blanksLength text ≠ 0) :
    lexemeAt? locale.regularTerminals text = some (.blanks, Shape.blanksLength text) := by
  rw [lexemeAt?, longestMatch?_blanks hend hpos]

/-- Where no line end begins, a margin is cut off with the blanks after it. -/
theorem cut_margin (locale : Locale) (hmargin : ∀ c ∈ margin, isGap c = true)
    (hend : Shape.lineEndLength? text = none) : ∃ blanks : List Char,
      (∀ c ∈ blanks, isInnerBlank c = true) ∧ cut locale.regularTerminals (margin ++ text) =
        (if blanks = [] then [] else [.lexeme .blanks blanks]) ++
          cut locale.regularTerminals (text.drop (Shape.blanksLength text)) := by
  have hinner : ∀ c ∈ margin, isInnerBlank c = true :=
    fun c hc => isInnerBlank_of_isGap (hmargin c hc)
  have hsplit := List.takeWhile_append_dropWhile (p := isInnerBlank) (l := text)
  have hdrop : text.drop (Shape.blanksLength text) = text.dropWhile isInnerBlank :=
    drop_length_takeWhile isInnerBlank text
  refine ⟨margin ++ text.takeWhile isInnerBlank, fun c hc => ?_, ?_⟩
  · rcases List.mem_append.1 hc with hc | hc
    · exact hinner c hc
    · exact List.all_eq_true.1 List.all_takeWhile c hc
  rw [hdrop]
  split
  · next hnil =>
    obtain ⟨rfl, htake⟩ := List.append_eq_nil_iff.1 hnil
    rw [htake, List.nil_append] at hsplit
    rw [hsplit, List.nil_append, List.nil_append]
  · next hne =>
    have hall : margin ++ text =
        margin ++ text.takeWhile isInnerBlank ++ text.dropWhile isInnerBlank := by
      rw [List.append_assoc, hsplit]
    -- the margin and the blanks after it are one run of blanks
    have hlength : Shape.blanksLength (margin ++ text) =
        (margin ++ text.takeWhile isInnerBlank).length :=
      congrArg List.length (List.takeWhile_append_of_pos hinner)
    have hnone : Shape.lineEndLength? (margin ++ text) = none := by
      rw [lineEndLength?_margin fun c hc => isLineTail_of_isGap (hmargin c hc), hend]
      rfl
    have hlexeme := lexemeAt?_blanks locale hnone
      (by rw [hlength]; exact mt List.length_eq_zero_iff.1 hne)
    rw [hlength, hall] at hlexeme
    rw [hall, cut_append hlexeme]
    rfl

/-- A margin before a line that belongs to its line end belongs to it too. -/
theorem cut_margin_lineEnd (locale : Locale) {body : List Char} {n : Nat}
    (hmargin : ∀ c ∈ margin, isGap c = true) (hbody : '\n' ∉ body)
    (hend : Shape.lineEndLength? (body ++ ['\n']) = some n) (rest : List Char) :
    cut locale.regularTerminals (margin ++ (body ++ '\n' :: rest)) =
      .lexeme .lineEnd (margin ++ body ++ ['\n']) :: cut locale.regularTerminals rest := by
  have hsplit : margin ++ (body ++ '\n' :: rest) = margin ++ body ++ ['\n'] ++ rest := by simp
  have hlength : Shape.lineEndLength? (margin ++ (body ++ '\n' :: rest)) =
      some (margin ++ body ++ ['\n']).length := by
    have hbreak := lineEndLength?_lineBreak hbody (LineBreak.fits_lineFeed body) rest
    rw [hend] at hbreak
    rw [lineEndLength?_margin fun c hc => isLineTail_of_isGap (hmargin c hc)]
    refine (congrArg (Option.map _) hbreak).trans ?_
    rw [Option.map_some, Option.map_some, ← List.length_append, ← List.append_assoc]
    rfl
  rw [hsplit] at hlength ⊢
  exact cut_append (lexemeAt?_of_lineEndLength? hlength)

/-- A margin before any other line is cut off with the blanks after it. -/
theorem cut_margin_line (locale : Locale) {body : List Char}
    (hmargin : ∀ c ∈ margin, isGap c = true)
    (hend : Shape.lineEndLength? (body ++ ['\n']) = none) (rest : List Char) : ∃ blanks : List Char,
      (∀ c ∈ blanks, isInnerBlank c = true) ∧
        cut locale.regularTerminals (margin ++ (body ++ '\n' :: rest)) =
          (if blanks = [] then [] else [.lexeme .blanks blanks]) ++ cut locale.regularTerminals
            (body.drop (Shape.blanksLength body) ++ '\n' :: rest) := by
  have hlength : Shape.blanksLength (body ++ '\n' :: rest) = Shape.blanksLength body :=
    congrArg List.length (takeWhile_stop body rest (by decide))
  have hle : Shape.blanksLength body ≤ body.length := takeWhile_length_le _ body
  rw [← List.drop_append_of_le_length hle, ← hlength]
  exact cut_margin locale hmargin ((lineEndLength?_lineFeed body rest).trans hend)

end Blanks

/-- Blanks within a line are not seen, where only lines are. -/
theorem Piece.Alike.blanks {blanks blanks' : List Char} (h : ∀ c ∈ blanks, isInnerBlank c = true)
    (h' : ∀ c ∈ blanks', isInnerBlank c = true) {pieces pieces' : List Piece}
    (halike : Alike .lines pieces pieces') :
    Alike .lines ((if blanks = [] then [] else [.lexeme .blanks blanks]) ++ pieces)
      ((if blanks' = [] then [] else [.lexeme .blanks blanks']) ++ pieces') := by
  have hline : ∀ {blanks : List Char}, (∀ c ∈ blanks, isInnerBlank c = true) → ∀ p : Position,
      View.lines.position (p.advance blanks) = View.lines.position p := by
    intro blanks h p
    have hfeed : '\n' ∉ blanks := fun hmem => absurd (h _ hmem) (by decide)
    exact congrArg (Position.mk · 1) (Position.line_advance_of_notMem hfeed)
  have hleft :
      Alike .lines ((if blanks = [] then [] else [.lexeme .blanks blanks]) ++ pieces) pieces' := by
    split
    · exact halike
    · exact .blanks_left (hline h) halike
  by_cases hnil : blanks' = []
  · rw [if_pos hnil]
    exact hleft
  · rw [if_neg hnil]
    exact .blanks_right (hline h') hleft

/-! ## Texts with other margins -/

/-- Two texts that are the same but for the spaces and tabs that their lines begin with. -/
inductive Reindented : List Char → List Char → Prop
  | last {margin margin' body : List Char} : (∀ c ∈ margin, isGap c = true) →
    (∀ c ∈ margin', isGap c = true) → '\n' ∉ body → Reindented (margin ++ body) (margin' ++ body)
  | line {margin margin' body text text' : List Char} : (∀ c ∈ margin, isGap c = true) →
    (∀ c ∈ margin', isGap c = true) → '\n' ∉ body → Reindented text text' →
      Reindented (margin ++ (body ++ '\n' :: text)) (margin' ++ (body ++ '\n' :: text'))

namespace Reindented

variable {text text' : List Char}

/-- Texts with other margins are cut alike, where only lines are seen. -/
theorem alike (h : Reindented text text') (locale : Locale) :
    Piece.Alike .lines (locale.pieces text) (locale.pieces text') := by
  induction h with
  | @last margin margin' body hmargin hmargin' hbody =>
    have hend : Shape.lineEndLength? body = none :=
      Option.eq_none_iff_forall_ne_some.2 fun n hn => hbody (lineFeed_mem_of_lineEndLength? hn)
    obtain ⟨blanks, hblanks, hcut⟩ := cut_margin locale hmargin hend
    obtain ⟨blanks', hblanks', hcut'⟩ := cut_margin locale hmargin' hend
    rw [Locale.pieces, Locale.pieces, hcut, hcut']
    exact .blanks hblanks hblanks' (.refl .lines _)
  | @line margin margin' body text text' hmargin hmargin' hbody _ ih =>
    -- of a line that is all line end the margin is a part; elsewhere it is blanks
    cases hend : Shape.lineEndLength? (body ++ ['\n']) with
    | some m =>
      rw [Locale.pieces, Locale.pieces, cut_margin_lineEnd locale hmargin hbody hend,
        cut_margin_lineEnd locale hmargin' hbody hend]
      have hfeed : ∀ {margin : List Char}, (∀ c ∈ margin, isGap c = true) → '\n' ∉ margin ++ body :=
        fun hmargin hmem =>
          (List.mem_append.1 hmem).elim (fun h => absurd (hmargin _ h) (by decide)) hbody
      exact .lineEnd (hfeed hmargin) (hfeed hmargin') ih
    | none =>
      obtain ⟨blanks, hblanks, hmore⟩ := cut_margin_line locale hmargin hend text
      obtain ⟨blanks', hblanks', hmore'⟩ := cut_margin_line locale hmargin' hend text'
      obtain ⟨pieces, image, -, hline⟩ :=
        locale.cut_line fun h => hbody (List.mem_of_mem_drop (i := Shape.blanksLength body) h)
      rw [Locale.pieces, Locale.pieces, hmore, hmore', hline, hline]
      exact .blanks hblanks hblanks' (.append (.same _ ih))

/-- In texts with other margins the same locale is detected. -/
theorem detect?_eq (h : Reindented text text') : Locale.detect? text = Locale.detect? text' := by
  have hskip : ∀ {margin : List Char}, (∀ c ∈ margin, isGap c = true) → ∀ text,
      Locale.detect? (margin ++ text) = Locale.detect? text := by
    intro margin hmargin text
    refine Locale.detect?_quiet fun c hc => isLetter_of_isLineTail ?_
    exact isLineTail_of_isGap (hmargin c hc)
  induction h with
  | last hmargin hmargin' => rw [hskip hmargin, hskip hmargin']
  | @line _ _ body _ _ hmargin hmargin' _ _ ih =>
    have hbreak :=
      Locale.detect?_append_cons body (isLetter_of_isBlank isBlank_lineFeed) (by decide)
    rw [hskip hmargin, hskip hmargin', hbreak, hbreak, ih]

end Reindented

/-- Texts with other margins are read alike, if no line feed is added to them: a last line without
    one may be its margin only, and then gets none when there is no margin either. -/
theorem Reading.viewed_ofText_reindented {text text' : List Char} (h : Reindented text text')
    {o : ReadingOptions} (hsource : o.source text = text) (hsource' : o.source text' = text') :
    (ofText o text).viewed .lines = (ofText o text').viewed .lines := by
  have hlocale : o.locale? text = o.locale? text' := by
    unfold ReadingOptions.locale?
    split
    · rfl
    · exact h.detect?_eq
  unfold ofText
  dsimp only
  rw [hsource, hsource', hlocale]
  split
  · exact viewed_congr (Lexing.viewed_congr (h.alike _)) o.errorLimit
  · rfl

/-- A text is lexed and parsed alike whatever the margins of its lines are, where only lines are
    seen. -/
theorem Reading.viewed_reindented {text text' : List Char} (h : Reindented text text')
    (locale : Locale) :
    (Lexing.ofText locale text).viewed .lines = (Lexing.ofText locale text').viewed .lines ∧
      ∀ limit, (inLocale locale limit text).viewed .lines =
        (inLocale locale limit text').viewed .lines := by
  have hlexing := Lexing.viewed_congr (h.alike locale)
  exact ⟨hlexing, viewed_congr hlexing⟩

theorem Reading.viewed_reindented_page :
    Reindented "Page: A\n  ?\n* b".toList "\tPage: A\n?\n    * b".toList ∧
      (Lexing.ofText .english "Page: A\n  ?\n* b".toList).viewed .lines =
        (Lexing.ofText .english "\tPage: A\n?\n    * b".toList).viewed .lines := by
  have hspaces : ∀ n, ∀ c ∈ List.replicate n ' ', isGap c = true :=
    fun n c hc => List.eq_of_mem_replicate hc ▸ rfl
  have htab : ∀ c ∈ ['\t'], isGap c = true := by decide
  have hlast : Reindented "* b".toList "    * b".toList := .last (hspaces 0) (hspaces 4) (by decide)
  have hpage : '\n' ∉ "Page: A".toList := by decide
  have hmark : '\n' ∉ ['?'] := by decide
  have hblank : Reindented "  ?\n* b".toList "?\n    * b".toList :=
    .line (hspaces 2) (hspaces 0) hmark hlast
  have h : Reindented "Page: A\n  ?\n* b".toList "\tPage: A\n?\n    * b".toList :=
    .line (hspaces 0) htab hpage hblank
  exact ⟨h, (viewed_reindented h .english).1⟩

end Wireframe
