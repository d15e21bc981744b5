import Mathlib.Data.List.Chain
import Wireframe.Proofs.Grammar.Fidelity
import Wireframe.Proofs.Scene.Printed
import Wireframe.Proofs.Token.Shown

/-!
# A printed scene as a sheet of words

A row takes one line of the source, or two, each of words and a line end (`Row.lines`). In a layout
the row is shown by the same lines, set anew: so a printed scene is a sheet of lines that are words,
or a comment (`Scene.layout_eq_sheet`).

The words of a scene that was read stood in the lines of its text (`Row.IsSet`).
Neighbours among them stay apart when they are printed again, if they do where free text
is next to them (`Token.Fits`).
-/

namespace Wireframe

open Text

/-! ## What is printed of words -/

theorem Literal.IsWellFormed.startsLiteral {l : Literal} (h : l.IsWellFormed) :
    l.token.kind.startsLiteral := by
  have hkind : l.token.kind = l.kind := h
  rw [hkind]
  cases l <;> rfl

section Parts

variable {locale : Locale} {t : Token}

/-- A token that is the lexeme at some place of a text. -/
def Token.IsLexeme (locale : Locale) (t : Token) : Prop :=
  ∃ rest, lexemeAt? locale.regularTerminals (t.chars ++ rest) = some (t.kind, t.chars.length)

theorem Token.IsLexeme.shown_ne_nil (h : t.IsLexeme locale) (ht : t.IsPrinted) : t.shown ≠ [] := by
  obtain ⟨rest, h⟩ := h
  obtain ⟨c, more, hshown, -⟩ := exists_shown_cons h ht
  exact hshown ▸ List.cons_ne_nil c more

theorem Written.isLexeme {words : List Token} {text : List Char} (h : Written locale words text) :
    ∀ t ∈ words, t.IsLexeme locale := by
  induction h with
  | last hlexeme => exact List.forall_mem_singleton.2 ⟨_, hlexeme⟩
  | cons hlexeme _ _ ih => exact List.forall_mem_cons.2 ⟨⟨_, hlexeme⟩, ih⟩

/-- A part of a printed line shows some words. They do not begin with a comma, before which
    there would be no space. -/
structure ShowsWords (part : String) (words : List Token) : Prop where
  part_eq : part = String.ofList (lineChars words)
  ne_comma : ∀ t ∈ words.head?, t.kind ≠ .comma

theorem Token.showsWords_squeezed (h : t.kind.isWord) : ShowsWords t.squeezed [t] where
  part_eq := by
    rw [lineChars, shown, h]
    rfl
  ne_comma u hu := by
    obtain rfl : t = u := Option.some.inj hu
    intro hcomma
    rw [hcomma] at h
    cases h

theorem Token.showsWords_trimmed (h : t.kind.isWord = false) (hne : t.kind ≠ .comma) :
    ShowsWords t.trimmed [t] where
  part_eq := by
    rw [lineChars, shown, h]
    rfl
  ne_comma u hu := Option.some.inj hu ▸ hne

theorem Token.showsWords_keyword {k : Keyword} (h : t.kind = .keyword k) :
    ShowsWords t.squeezed [t] :=
  showsWords_squeezed (by rw [h]; rfl)

theorem Value.IsWellFormed.showsWords {v : Value} (h : v.IsWellFormed) :
    ShowsWords v.token.trimmed [v.token] := by
  have hkind : v.token.kind = v.kind := h
  refine Token.showsWords_trimmed ?_ ?_ <;> rw [hkind] <;> cases v <;> first | rfl | exact nofun

theorem Literal.IsWellFormed.showsWords {l : Literal} (h : l.IsWellFormed) :
    ShowsWords l.token.trimmed [l.token] := by
  have hkind : l.token.kind = l.kind := h
  refine Token.showsWords_trimmed ?_ ?_ <;> rw [hkind] <;> cases l <;> first | rfl | exact nofun

/-- Whether a kind of token is a numeral. -/
def TokenKind.isNumeral : TokenKind → Bool
  | .numeral _ => true
  | _ => false

theorem Locale.gap_notMem_numeral (locale : Locale) : ∀ u ∈ locale.wordTerminals, u.kind.isNumeral →
    ∀ f ∈ u.forms, .gap ∉ f.marks := by
  cases locale <;> decide +kernel

/-- Without gaps, nothing is squeezed. -/
theorem Spelling.eq_of_notMem_gap {marks : List Mark} {text squeezed : List Char}
    (h : Spelling marks text squeezed) (hgap : .gap ∉ marks) :
    text = squeezed ∧ ∀ c ∈ text, isBlank c = false := by
  induction h with
  | nil => exact ⟨rfl, fun _ h => absurd h List.not_mem_nil⟩
  | letter _ hc _ ih =>
    obtain ⟨heq, hblank⟩ := ih (not_or.1 (mt List.mem_cons.2 hgap)).2
    exact ⟨congrArg _ heq, List.forall_mem_cons.2 ⟨hc, hblank⟩⟩
  | gap => exact absurd List.mem_cons_self hgap

/-- A numeral is one word, so that it does not matter whether it is squeezed or trimmed. -/
theorem Count.IsWellFormed.showsWords {c : Count} (h : c.IsWellFormed)
    (hlexeme : c.token.IsLexeme locale) : ShowsWords c.token.trimmed [c.token] := by
  obtain ⟨-, hkind | ⟨n, hkind⟩⟩ := h.kind
  · refine Token.showsWords_trimmed ?_ ?_ <;> rw [hkind]
    · rfl
    · exact nofun
  · obtain ⟨rest, hlexeme⟩ := hlexeme
    have hword : c.token.kind.isWord := by rw [hkind]; rfl
    obtain ⟨u, hu, f, hf, hkind', hspelling, -⟩ := exists_form_of_shown hlexeme hword
    have hgap := locale.gap_notMem_numeral u hu (by rw [hkind', hkind]; rfl) f hf
    obtain ⟨heq, hblank⟩ := hspelling.eq_of_notMem_gap hgap
    have htrim := trim_eq_self (fun d hd => hblank d (List.mem_of_mem_head? hd))
      (fun d hd => hblank d (List.mem_of_mem_getLast? hd))
    have hshown : c.token.shown = squeeze c.token.chars := by
      rw [Token.shown, hword]
      rfl
    have hsame : c.token.trimmed = c.token.squeezed := by
      rw [Token.trimmed, htrim, Token.squeezed, ← hshown, ← heq]
    exact hsame ▸ Token.showsWords_squeezed hword

end Parts

/-! ## Putting parts together -/

section Join

theorem lineChars_append {words more : List Token} {u : Token} (hne : words ≠ [])
    (hu : u.kind ≠ .comma) :
    lineChars (words ++ u :: more) = lineChars words ++ ' ' :: lineChars (u :: more) := by
  induction words with
  | nil => exact absurd rfl hne
  | cons t words ih =>
    cases words with
    | nil =>
      rw [List.singleton_append, lineChars.eq_3, if_neg hu]
      rfl
    | cons t' words =>
      have := ih (List.cons_ne_nil _ _)
      rw [List.cons_append, List.cons_append, lineChars, lineChars, ← List.cons_append, this]
      simp only [List.append_assoc]

theorem lineChars_ne_nil {words : List Token} (hne : words ≠ []) (h : ∀ t ∈ words, t.shown ≠ []) :
    lineChars words ≠ [] := by
  obtain ⟨t, words, rfl⟩ := List.exists_cons_of_ne_nil hne
  obtain ⟨tail, htail, -⟩ := exists_lineChars_cons t words
  rw [htail]
  exact List.append_ne_nil_of_left_ne_nil (h t List.mem_cons_self) tail

/-- Parts that each show some words show them on one line together; if there are no
    words, all parts are empty. -/
theorem ShowsWords.joinParts_and {parts : List String} {groups : List (List Token)}
    (h : List.Forall₂ ShowsWords parts groups) (hshown : ∀ t ∈ groups.flatten, t.shown ≠ []) :
    ShowsWords (joinParts parts) groups.flatten ∧
      (groups.flatten = [] → parts.filter (!·.isEmpty) = []) := by
  induction h with
  | nil => exact ⟨⟨rfl, fun _ h => nomatch h⟩, fun _ => rfl⟩
  | @cons part words parts groups hpart hparts ih =>
    rw [List.flatten_cons, List.forall_mem_append] at hshown
    obtain ⟨hrest, hnone⟩ := ih hshown.2
    rw [List.flatten_cons]
    cases words with
    | nil =>
      rw [hpart.part_eq]
      exact ⟨hrest, hnone⟩
    | cons t words =>
      refine ⟨⟨?_, hpart.ne_comma⟩, nofun⟩
      have hne : (!part.isEmpty) = true := by
        have := lineChars_ne_nil (List.cons_ne_nil t words) hshown.1
        rw [hpart.part_eq]
        simpa using this
      rw [joinParts, List.filter_cons_of_pos (p := fun part : String => !part.isEmpty) hne,
        hpart.part_eq]
      cases hflatten : groups.flatten with
      | nil => rw [hnone hflatten, String.intercalate_singleton, List.append_nil]
      | cons u more =>
        rw [hflatten] at hrest hshown
        have hsome : parts.filter (!·.isEmpty) ≠ [] := by
          intro hnone
          have hempty := hrest.part_eq
          rw [joinParts, hnone] at hempty
          exact lineChars_ne_nil (List.cons_ne_nil u more) hshown.2
            (String.ofList_injective hempty.symm)
        rw [String.intercalate_cons_of_ne_nil hsome, ← joinParts, hrest.part_eq,
          lineChars_append (List.cons_ne_nil t words) (hrest.ne_comma u rfl)]
        simp [String.append_assoc]

theorem ShowsWords.joinParts {parts : List String} {groups : List (List Token)} {words : List Token}
    (h : List.Forall₂ ShowsWords parts groups) (hwords : groups.flatten = words)
    (hshown : ∀ t ∈ words, t.shown ≠ []) : ShowsWords (joinParts parts) words := by
  subst hwords
  exact (joinParts_and h hshown).1

/-- The names of an alignment, with a comma after all but the last. -/
theorem intercalate_names {names : List Literal} {commas : List Token}
    (hnames : ∀ l ∈ names, l.IsWellFormed)
    (hcommas : ∀ t ∈ commas, t.kind = .comma ∧ t.shown = [','])
    (hlength : commas.length = names.length - 1) :
    String.intercalate ", " (names.map (·.token.trimmed)) =
      String.ofList (lineChars (separated (names.map Literal.token) commas)) := by
  induction names generalizing commas with
  | nil =>
    obtain rfl := List.length_eq_zero_iff.1 hlength
    rfl
  | cons n names ih =>
    obtain ⟨hn, hnames⟩ := List.forall_mem_cons.1 hnames
    cases names with
    | nil =>
      obtain rfl := List.length_eq_zero_iff.1 hlength
      exact String.intercalate_singleton.trans hn.showsWords.part_eq
    | cons m names =>
      obtain ⟨comma, commas, rfl⟩ := List.exists_cons_of_length_eq_add_one hlength
      obtain ⟨⟨hcomma, hshown⟩, hcommas⟩ := List.forall_mem_cons.1 hcommas
      have hrest := ih hnames hcommas (Nat.succ.inj hlength)
      obtain ⟨more, hmore⟩ : ∃ more, separated ((m :: names).map Literal.token) commas =
          m.token :: more := by
        cases commas <;> exact ⟨_, rfl⟩
      have hm := (hnames m List.mem_cons_self).showsWords.ne_comma m.token rfl
      simp only [List.map_cons] at hrest hmore ⊢
      rw [String.intercalate_cons_cons, hrest, separated, hmore, hn.showsWords.part_eq,
        lineChars.eq_3, if_pos hcomma, lineChars.eq_3, if_neg hm, hshown]
      have hseparator : ", " = String.ofList [','] ++ String.ofList [' '] := rfl
      simp only [hseparator, String.ofList_append, String.append_assoc, lineChars, List.nil_append]

end Join

/-! ## The lines of a sheet -/

/-- A line of a printed scene. -/
inductive SheetLine
  | comment (level : Nat) (c : Token)
  | words (level : Nat) (words : List Token)

namespace SheetLine

/-- The characters of a line; without words it is empty. -/
def chars : SheetLine → List Char
  | comment level c => List.replicate (4 * level) ' ' ++ trim c.chars
  | words _ [] => []
  | words level (t :: more) => List.replicate (4 * level) ' ' ++ lineChars (t :: more)

end SheetLine

namespace LaidRow

/-- The lines that a row of a layout takes. -/
def lines (r : LaidRow) : List SheetLine :=
  r.row.lines.mapIdx fun i l => .words (r.level + i) l.words

end LaidRow

section Texts

variable {locale : Locale}

theorem commentLine_eq (level : Nat) (c : Token) :
    commentLine level c = String.ofList (SheetLine.comment level c).chars := by
  rw [commentLine, SheetLine.chars, String.ofList_append]
  rfl

/-- Where a token shows nothing it is not printed. -/
theorem shown_ne_nil {words : List Token} (hlexeme : ∀ t ∈ words, t.IsLexeme locale)
    (hprinted : ∀ t ∈ words, t.IsPrinted) : ∀ t ∈ words, t.shown ≠ [] := fun t ht =>
  (hlexeme t ht).shown_ne_nil (hprinted t ht)

theorem Direction.showsWords {d : Direction} (h : d.IsWellFormed)
    (hlexeme : ∀ t ∈ d.words, t.IsLexeme locale) : ShowsWords d.line d.words := by
  have hshown := shown_ne_nil hlexeme h.isPrinted
  have hkeyword := Token.showsWords_keyword h.keyword
  obtain ⟨_ | c, k, axis, e⟩ := d
  · exact .joinParts (.cons hkeyword .nil) rfl hshown
  · exact .joinParts (.cons ((h.count c rfl).showsWords (hlexeme c.token List.mem_cons_self))
      (.cons hkeyword .nil)) rfl hshown

/-- A keyword and the value after it, if there is one, part by part. -/
theorem forall₂_showsWords {k : Token} {name : Keyword} {title : Option Value}
    (hk : k.kind = .keyword name) (h : ∀ v ∈ title, v.IsWellFormed) :
    List.Forall₂ ShowsWords (k.squeezed :: title.toList.map (·.token.trimmed))
      ([k] :: title.toList.map fun v => [v.token]) := by
  refine .cons (Token.showsWords_keyword hk) ?_
  cases title with
  | none => exact .nil
  | some v => exact .cons (h v rfl).showsWords .nil

theorem flatten_parts (k : Token) (title : Option Value) :
    ([k] :: title.toList.map fun v => [v.token]).flatten = k :: title.toList.map Value.token := by
  cases title <;> rfl

theorem Item.showsWords {i : Item} (h : i.IsWellFormed)
    (hlexeme : ∀ t ∈ contentLeaves i.content, t.IsLexeme locale) :
    ShowsWords i.line (contentLeaves i.content) := by
  have hshown :=
    shown_ne_nil hlexeme (Row.IsWellFormed.lines (r := .item i) h _ List.mem_cons_self).1
  obtain ⟨⟨kind, k, v⟩ | l, e⟩ := i
  · exact .joinParts (forall₂_showsWords h.content.1 h.content.2) (flatten_parts k v) hshown
  · exact Literal.IsWellFormed.showsWords h.content

theorem Alignment.showsWords {a : Alignment} (h : a.IsWellFormed)
    (hlexeme : ∀ t ∈ a.words, t.IsLexeme locale) : ShowsWords a.line a.words := by
  have hshown := shown_ne_nil hlexeme h.isPrinted
  obtain ⟨hnames, hdirection⟩ := List.forall_mem_append.1 hlexeme
  have hcommas : ∀ t ∈ a.commas, t.kind = .comma ∧ t.shown = [','] := by
    intro t ht
    obtain ⟨rest, hlexeme⟩ := hnames t (List.mem_cons_of_mem _
      ((separated_perm _ _).symm.subset (List.mem_append_right _ ht)))
    exact ⟨h.commas t ht, shown_of_comma hlexeme (h.commas t ht)⟩
  -- the words between the keywords do not begin with a comma: a name comes first
  have hfirst : ∀ t ∈ (separated (a.names.map Literal.token) a.commas).head?, t.kind ≠ .comma := by
    cases hnames : a.names with
    | nil =>
      have := h.between
      rw [hnames] at this
      rw [List.length_eq_zero_iff.1 this]
      exact nofun
    | cons n names =>
      have hn := (h.names n (hnames ▸ List.mem_cons_self)).showsWords.ne_comma n.token rfl
      cases a.commas <;> exact fun t ht => Option.some.inj ht ▸ hn
  refine .joinParts (.cons (Token.showsWords_keyword h.keyword) (.cons ⟨?_, hfirst⟩
    (.cons (Token.showsWords_keyword h.aligned)
      (.cons (Direction.showsWords h.direction fun t ht => hdirection t (List.mem_cons_of_mem _ ht))
        .nil)))) ?_ hshown
  · exact intercalate_names h.names hcommas h.between
  · simp [words]

/-- A line with words is indented. -/
theorem ShowsWords.texts_eq {part : String} {words : List Token} (h : ShowsWords part words)
    (hne : words ≠ []) (level : Nat) :
    Printer.indentation level ++ part = String.ofList (SheetLine.words level words).chars := by
  obtain ⟨t, words, rfl⟩ := List.exists_cons_of_ne_nil hne
  rw [h.part_eq, SheetLine.chars, String.ofList_append]
  rfl

theorem ShowsWords.texts {part : String} {words : List Token} (h : ShowsWords part words)
    (hne : words ≠ []) (level : Nat) : [Printer.indentation level ++ part] =
      [SheetLine.words level words].map fun l => String.ofList l.chars :=
  congrArg ([·]) (h.texts_eq hne level)

/-- A row of a layout is shown by the lines that it takes. -/
theorem LaidRow.texts_eq_lines {r : LaidRow} (h : r.row.IsWellFormed)
    (hlexeme : ∀ l ∈ r.row.lines, ∀ t ∈ l.words, t.IsLexeme locale) :
    r.texts = r.lines.map fun l => String.ofList l.chars := by
  obtain ⟨level, row⟩ := r
  have hshown : ∀ l ∈ row.lines, ∀ t ∈ l.words, t.shown ≠ [] := fun l hl =>
    shown_ne_nil (hlexeme l hl) (h.lines l hl).1
  cases row with
  | blank e => rfl
  | page d k t e =>
    obtain ⟨hdevice, hkeyword, htitle, -⟩ := h
    have hshown := List.forall_mem_singleton.1 hshown
    have hparts :=
      List.Forall₂.cons (Token.showsWords_keyword hkeyword) (.cons htitle.showsWords .nil)
    cases d with
    | none => exact (ShowsWords.joinParts hparts rfl hshown).texts (List.cons_ne_nil _ _) level
    | some d =>
      have hdevice := Token.showsWords_keyword (hdevice d rfl)
      exact (ShowsWords.joinParts (.cons hdevice hparts) rfl hshown).texts
        (List.cons_ne_nil _ _) level
  | alignment a =>
    exact (Alignment.showsWords h (List.forall_mem_singleton.1 hlexeme)).texts
      (List.cons_ne_nil _ _) level
  | block k t e =>
    have hparts := forall₂_showsWords h.1 h.2.1
    exact (ShowsWords.joinParts hparts (flatten_parts k t)
      (List.forall_mem_singleton.1 hshown)).texts (List.cons_ne_nil _ _) level
  | direction d =>
    have hwords : d.words ≠ [] := by simp [Direction.words]
    exact (Direction.showsWords h (List.forall_mem_singleton.1 hlexeme)).texts hwords level
  | list k t b c e =>
    obtain ⟨hkeyword, htitle, -, hconsists, -⟩ := h
    have hparts := forall₂_showsWords hkeyword htitle
    have hconsists := Token.showsWords_keyword hconsists
    cases b with
    | none =>
      -- what the list consists of is said on its own line
      have hshown := List.forall_mem_singleton.1 hshown
      refine (ShowsWords.joinParts (List.rel_append hparts (.cons hconsists .nil)) ?_ hshown).texts
        (List.cons_ne_nil _ _) level
      rw [List.flatten_append, flatten_parts]
      rfl
    | some b =>
      obtain ⟨hfirst, -⟩ := List.forall_mem_cons.1 hshown
      exact congrArg₂ (fun line line' => [line, line'])
        ((ShowsWords.joinParts hparts (flatten_parts k t) hfirst).texts_eq
          (List.cons_ne_nil _ _) level)
        (hconsists.texts_eq (List.cons_ne_nil _ _) (level + 1))
  | item i =>
    have hwords : Item.contentLeaves i.content ≠ [] := by
      obtain ⟨⟨kind, k, v⟩ | l, e⟩ := i <;> exact List.cons_ne_nil _ _
    exact (Item.showsWords h (List.forall_mem_singleton.1 hlexeme)).texts hwords level

end Texts

/-! ## Rows that were written -/

section Written

variable {locale : Locale}

/-- The first line of some tokens is known, if they were written. -/
theorem Scanned.of_append {words tokens : List Token} {e : Token}
    (hwords : ∀ t ∈ words, t.kind ≠ .lineEnd)
    (he : e.kind = .lineEnd) (h : Scanned locale (words ++ e :: tokens)) :
    (words ≠ [] → ∃ text, Written locale words text) ∧ Scanned locale tokens := by
  generalize hall : words ++ e :: tokens = all at h
  cases h with
  | open_line hwords' =>
    exact absurd he (hwords' e (hall ▸ List.mem_append_right _ List.mem_cons_self))
  | @line words' tokens' e' hwords' hwritten he' htokens =>
    -- the words are what comes before the first line end
    have htake (front : List Token) (last : Token) (more : List Token)
        (hfront : ∀ t ∈ front, t.kind ≠ .lineEnd) (hlast : last.kind = .lineEnd) :
        (front ++ last :: more).takeWhile (·.kind ≠ .lineEnd) = front :=
      takeWhile_append_stop (fun t ht => decide_eq_true (hfront t ht)) (by simp [hlast])
    obtain rfl : words = words' := by
      rw [← htake words e tokens hwords he, hall, htake words' e' tokens' hwords' he']
    obtain ⟨-, rfl⟩ := List.cons.inj (List.append_cancel_left hall)
    exact ⟨hwritten, htokens⟩

/-- Lines of tokens that were written are those of the text. -/
theorem Scanned.written {lines : List WordLine} (hlines : ∀ l ∈ lines,
    (∀ t ∈ l.words, t.kind ≠ .lineEnd) ∧ l.lineEnd.kind = .lineEnd)
    (h : Scanned locale (lines.flatMap fun l => l.words ++ [l.lineEnd])) :
    ∀ l ∈ lines, l.words ≠ [] → ∃ text, Written locale l.words text := by
  induction lines with
  | nil => exact fun _ h => absurd h List.not_mem_nil
  | cons l lines ih =>
    obtain ⟨⟨hwords, hend⟩, hlines⟩ := List.forall_mem_cons.1 hlines
    rw [List.flatMap_cons, List.append_assoc] at h
    obtain ⟨hwritten, htokens⟩ := Scanned.of_append hwords hend h
    exact List.forall_mem_cons.2 ⟨hwritten, ih hlines htokens⟩

/-- A row whose lines were written in a text. -/
structure Row.IsWritten (locale : Locale) (r : Row) : Prop where
  wellFormed : r.IsWellFormed
  written : ∀ l ∈ r.lines, l.words ≠ [] → ∃ text, Written locale l.words text

theorem Row.isWritten_blank : (Row.blank .newline).IsWritten locale where
  wellFormed := rfl
  written := List.forall_mem_singleton.2 fun h => absurd rfl h

theorem Row.IsWritten.isLexeme {r : Row} (h : r.IsWritten locale) :
    ∀ l ∈ r.lines, ∀ t ∈ l.words, t.IsLexeme locale := by
  intro l hl t ht
  obtain ⟨text, hwritten⟩ := h.written l hl (List.ne_nil_of_mem ht)
  exact hwritten.isLexeme t ht

theorem Scanned.isWritten {rows : List Row} (hwell : ∀ r ∈ rows, r.IsWellFormed)
    (h : Scanned locale (Row.tokens rows)) : ∀ r ∈ rows, r.IsWritten locale := by
  have htokens : Row.tokens rows =
      (rows.flatMap Row.lines).flatMap fun l => l.words ++ [l.lineEnd] := by
    rw [Row.tokens, List.flatMap_assoc]
    exact List.flatMap_congr fun r _ => r.leaves_eq_lines
  have hkinds : ∀ l ∈ rows.flatMap Row.lines,
      (∀ t ∈ l.words, t.kind ≠ .lineEnd) ∧ l.lineEnd.kind = .lineEnd := by
    refine List.forall_mem_flatMap.2 fun r hr l hl => ?_
    obtain ⟨hwords, hend⟩ := (hwell r hr).lines l hl
    exact ⟨fun t ht => (hwords t ht).ne_lineEnd, hend⟩
  have hall := Scanned.written hkinds (htokens ▸ h)
  exact fun r hr => ⟨hwell r hr, fun l hl => hall l (List.mem_flatMap.2 ⟨r, hr, hl⟩)⟩

end Written

/-! ## Neighbours in a row -/

section Apart

variable {locale : Locale}

/-- Neighbours in a text where free text, printed again, would run into no other word: only a line
    end comes after it, and what comes before it does not go on into it. -/
structure Token.Fits (locale : Locale) (t u : Token) : Prop where
  last : t.kind = .freeText → u.kind = .lineEnd
  apart : u.kind = .freeText →
    longestMatch? locale.regularTerminals (t.shown ++ ' ' :: u.shown) =
      some (t.kind, t.shown.length)

/-- Tokens whose free text, printed again, is read as it was: nowhere does it lose its end or
    run into another word. -/
structure CaptionsFit (locale : Locale) (tokens : List Token) : Prop where
  ends : ∀ t ∈ tokens, t.KeepsEnd
  fits : tokens.IsChain (Token.Fits locale)

instance (t : Token) : Decidable t.KeepsEnd :=
  inferInstanceAs (Decidable (t.kind = .freeText → t.shown.getLast? ≠ some '/'))

instance : DecidableRel (Token.Fits locale) := fun _ _ =>
  decidable_of_iff (_ ∧ _) ⟨fun h => ⟨h.1, h.2⟩, fun h => ⟨h.last, h.apart⟩⟩

instance (tokens : List Token) : Decidable (CaptionsFit locale tokens) :=
  decidable_of_iff (_ ∧ _) ⟨fun h => ⟨h.1, h.2⟩, fun h => ⟨h.ends, h.fits⟩⟩

theorem Token.isWord_of_keyword {t : Token} {k : Keyword} (h : t.kind = .keyword k) :
    t.kind.isWord := by
  rw [h]
  rfl

theorem StaysApart.of_words {t u : Token} {kind kind' : TokenKind} (ht : t.kind = kind)
    (hu : u.kind = kind') (h : kind.isWord) (h' : kind'.isWord) (hfollow : kind.mayFollow kind') :
    StaysApart locale t u :=
  .words (ht ▸ h) (hu ▸ h') (ht ▸ hu ▸ hfollow)

theorem Value.IsWellFormed.staysApart {k : Token} {name : Keyword} {v : Value} (h : v.IsWellFormed)
    (hk : k.kind = .keyword name) (hfits : k.Fits locale v.token) :
    StaysApart locale k v.token := by
  have hword := Token.isWord_of_keyword hk
  have hkind : v.token.kind = v.kind := h
  cases v with
  | freeText t => exact .caption hword hkind (hfits.apart hkind)
  | quotation t => exact .literal hword (.inl (by rw [hkind]; rfl))
  | placeholder t => exact .literal hword (.inl (by rw [hkind]; rfl))

/-- The words of a direction stay apart, also after the word before them. -/
theorem Direction.IsWellFormed.isChain {d : Direction} (h : d.IsWellFormed) :
    d.words.IsChain (StaysApart locale) ∧ ∀ t, t.kind = .keyword .aligned →
      (t :: d.words).IsChain (StaysApart locale) := by
  obtain ⟨_ | c, k, axis, e⟩ := d
  · refine ⟨.singleton _, fun t ht => .cons_cons (.of_words ht h.keyword rfl rfl ?_) (.singleton _)⟩
    cases axis <;> rfl
  · have hkeyword : k.kind = .keyword axis.keyword := h.keyword
    have hword := Token.isWord_of_keyword hkeyword
    obtain ⟨-, hkind | ⟨n, hkind⟩⟩ := (h.count c rfl).kind
    · have hwords : [c.token, k].IsChain (StaysApart locale) :=
        .cons_cons (.afterNumber hkind hword) (.singleton _)
      exact ⟨hwords, fun t ht =>
        .cons_cons (.literal (Token.isWord_of_keyword ht) (.inr hkind)) hwords⟩
    · have hwords : [c.token, k].IsChain (StaysApart locale) := by
        refine .cons_cons (.of_words hkind hkeyword rfl rfl ?_) (.singleton _)
        cases axis <;> rfl
      exact ⟨hwords, fun t ht => .cons_cons (.of_words ht hkind rfl rfl rfl) hwords⟩

/-- Names with commas between them stay apart from each other and from the word that comes next. -/
theorem isChain_separated {names : List Literal} {commas rest : List Token} {n : Literal}
    (hnames : ∀ l ∈ n :: names, l.IsWellFormed) (hcommas : ∀ t ∈ commas, t.kind = .comma)
    (hlength : commas.length = names.length) {u : Token} (hu : u.kind.isWord)
    (hrest : (u :: rest).IsChain (StaysApart locale)) :
    (separated ((n :: names).map Literal.token) commas ++ u :: rest).IsChain
      (StaysApart locale) := by
  induction names generalizing n commas with
  | nil =>
    obtain rfl := List.length_eq_zero_iff.1 hlength
    exact .cons_cons (.afterLiteral (hnames n List.mem_cons_self).startsLiteral (.inr hu)) hrest
  | cons m names ih =>
    obtain ⟨comma, commas, rfl⟩ := List.exists_cons_of_length_eq_add_one hlength
    obtain ⟨hcomma, hcommas⟩ := List.forall_mem_cons.1 hcommas
    obtain ⟨hn, hnames⟩ := List.forall_mem_cons.1 hnames
    have hmore := ih hnames hcommas (Nat.succ.inj hlength)
    have hm := (hnames m List.mem_cons_self).startsLiteral
    have hcons : (comma :: (separated ((m :: names).map Literal.token) commas ++ u :: rest)).IsChain
        (StaysApart locale) := by
      cases commas <;> exact .cons_cons (.afterComma hcomma hm) hmore
    exact .cons_cons (.afterLiteral hn.startsLiteral (.inl hcomma)) hcons

theorem Alignment.IsWellFormed.isChain {a : Alignment} (h : a.IsWellFormed) :
    a.words.IsChain (StaysApart locale) := by
  have hrest : (a.aligned :: a.direction.words).IsChain (StaysApart locale) :=
    h.direction.isChain.2 a.aligned h.aligned
  have haligned := Token.isWord_of_keyword h.aligned
  rw [words, List.cons_append]
  cases hnames : a.names with
  | nil =>
    have hlength := h.between
    rw [hnames] at hlength
    rw [List.length_eq_zero_iff.1 hlength]
    exact .cons_cons (.of_words h.keyword h.aligned rfl rfl rfl) hrest
  | cons n names =>
    have hall := h.names
    have hlength := h.between
    rw [hnames] at hall hlength
    have hchain := isChain_separated hall h.commas hlength haligned hrest
    have hn := (hall n List.mem_cons_self).startsLiteral
    have hkeyword := Token.isWord_of_keyword h.keyword
    generalize a.commas = commas at hchain ⊢
    cases commas <;> exact .cons_cons (.literal hkeyword (.inl hn)) hchain

/-- A keyword, with a value after it or not. -/
theorem isChain_titled {k : Token} {name : Keyword} {v : Option Value} (hk : k.kind = .keyword name)
    (hv : ∀ x ∈ v, x.IsWellFormed) {rest : List Token}
    (hfits : (k :: (v.toList.map Value.token ++ rest)).IsChain (Token.Fits locale)) :
    (k :: v.toList.map Value.token).IsChain (StaysApart locale) := by
  cases v with
  | none => exact .singleton _
  | some v =>
    exact .cons_cons ((hv v rfl).staysApart hk (List.isChain_cons_cons.1 hfits).1) (.singleton _)

theorem isChain_page {d : Option DeviceTag} {k : Token} {t : Value} {e : Token}
    (h : (Row.page d k t e).IsWellFormed)
    (hfits : (Row.page d k t e).leaves.IsChain (Token.Fits locale)) :
    ((d.toList.map DeviceTag.token) ++ [k, t.token]).IsChain (StaysApart locale) := by
  obtain ⟨hdevice, hkeyword, htitle, -⟩ := h
  have htitle {rest : List Token} (hfits : (k :: t.token :: rest).IsChain (Token.Fits locale)) :
      [k, t.token].IsChain (StaysApart locale) :=
    .cons_cons (htitle.staysApart hkeyword (List.isChain_cons_cons.1 hfits).1) (.singleton _)
  cases d with
  | none => exact htitle hfits
  | some d =>
    refine .cons_cons ?_ (htitle (List.isChain_cons_cons.1 hfits).2)
    refine .of_words (hdevice d rfl) hkeyword rfl rfl ?_
    cases d.device <;> rfl

/-- A list that consists of something on its first line. A title there is no free text, which would
    go on to the end of the line. -/
theorem isChain_listConsists {k c : Token} {t : Option Value} {rest : List Token}
    (hkeyword : k.kind = .keyword .list) (hconsists : c.kind = .keyword .consistsOf)
    (htitle : ∀ v ∈ t, v.IsWellFormed)
    (hfits : (k :: (t.toList.map Value.token ++ c :: rest)).IsChain (Token.Fits locale)) :
    (k :: (t.toList.map Value.token ++ [c])).IsChain (StaysApart locale) := by
  have hword := Token.isWord_of_keyword hconsists
  cases t with
  | none => exact .cons_cons (.of_words hkeyword hconsists rfl rfl rfl) (.singleton _)
  | some v =>
    obtain ⟨hv, hrest⟩ := List.isChain_cons_cons.1 hfits
    refine .cons_cons ((htitle v rfl).staysApart hkeyword hv) (.cons_cons ?_ (.singleton _))
    have hkind : v.token.kind = v.kind := htitle v rfl
    cases v with
    | freeText t =>
      have hend := (List.isChain_cons_cons.1 hrest).1.last hkind
      rw [hconsists] at hend
      cases hend
    | quotation t => exact .afterLiteral (by rw [hkind]; rfl) (.inr hword)
    | placeholder t => exact .afterLiteral (by rw [hkind]; rfl) (.inr hword)

/-- Words of a row stay apart where free text fits in. -/
theorem Row.IsWellFormed.isChain {r : Row} (h : r.IsWellFormed)
    (hfits : r.leaves.IsChain (Token.Fits locale)) :
    ∀ l ∈ r.lines, l.words.IsChain (StaysApart locale) := by
  cases r with
  | blank e => exact List.forall_mem_singleton.2 .nil
  | page d k t e =>
    refine List.forall_mem_singleton.2 ?_
    have hchain := isChain_page h hfits
    cases d <;> exact hchain
  | alignment a => exact List.forall_mem_singleton.2 (Alignment.IsWellFormed.isChain h)
  | block k t e => exact List.forall_mem_singleton.2 (isChain_titled h.1 h.2.1 hfits)
  | direction d => exact List.forall_mem_singleton.2 (Direction.IsWellFormed.isChain h).1
  | list k t b c e =>
    obtain ⟨hkeyword, htitle, -, hconsists, -⟩ := h
    -- a break in the head of a list puts its last keyword on a line of its own
    cases b with
    | some b =>
      rw [leaves, Option.toList_some, List.append_assoc, List.cons_append] at hfits
      exact List.forall_mem_cons.2
        ⟨isChain_titled hkeyword htitle hfits, List.forall_mem_singleton.2 (.singleton _)⟩
    | none =>
      rw [leaves, Option.toList_none, List.append_nil, List.cons_append] at hfits
      exact List.forall_mem_singleton.2 (isChain_listConsists hkeyword hconsists htitle hfits)
  | item i =>
    obtain ⟨⟨kind, k, v⟩ | l, e⟩ := i
    · exact List.forall_mem_singleton.2 (isChain_titled h.content.1 h.content.2 hfits)
    · exact List.forall_mem_singleton.2 (.singleton _)

end Apart

/-! ## The sheet of a scene -/

namespace SheetLine

/-- A line that reads back: it is a comment, or its words were written in a text and stay apart, and
    none of them loses its end. -/
inductive IsSet (locale : Locale) : SheetLine → Prop
  | comment {c : Token} {text : List Char} (level : Nat) : c.kind = .comment →
    c.chars = '/' :: '/' :: text → (∀ d ∈ text, Shape.isBreak d = false) →
    IsSet locale (comment level c)
  | blank (level : Nat) : IsSet locale (words level [])
  | words {ws : List Token} {text : List Char} (level : Nat) : Written locale ws text →
    ws.IsChain (StaysApart locale) → (∀ t ∈ ws, t.IsPrinted) → (∀ t ∈ ws, t.KeepsEnd) →
      IsSet locale (words level ws)

end SheetLine

namespace Scene

/-- The lines of a printed scene. -/
def sheet (s : Scene) : List SheetLine :=
  arrange .comment LaidRow.lines (sortByOffset (s.comments.map Comment.token)) s.passages

end Scene

/-- The characters of a sheet. -/
def sheetChars (sheet : List SheetLine) : List Char :=
  sheet.flatMap fun line => line.chars ++ ['\n']

section Sheet

variable {locale : Locale} {s : Scene}

theorem Scene.mem_rowsOf_laid {p : Passage} {r : LaidRow} (hp : p ∈ s.passages) (hr : r ∈ p.rows) :
    r.row ∈ rowsOf s.laid :=
  List.mem_map_of_mem (s.rows_passages ▸ List.mem_flatMap.2 ⟨p, hp, hr⟩)

/-- The lines of a scene that was read are printed as those of its sheet. -/
theorem Scene.arrange_texts (h : ∀ r ∈ rowsOf s.laid, r.IsWritten locale) :
    arrange commentLine LaidRow.texts (sortByOffset (s.comments.map Comment.token)) s.passages =
      s.sheet.map fun line => String.ofList line.chars := by
  refine arrange_eq_map commentLine_eq fun p hp r hr => ?_
  have hrow := h _ (s.mem_rowsOf_laid hp hr)
  exact r.texts_eq_lines hrow.wellFormed hrow.isLexeme

/-- A scene that was read is printed as its sheet. -/
theorem Scene.layout_eq_sheet (h : ∀ r ∈ rowsOf s.laid, r.IsWritten locale) :
    s.layout = String.ofList (sheetChars s.sheet) := by
  refine String.toList_inj.1 ?_
  rw [s.layout_eq, Scene.arrange_texts h, String.toList_join, String.toList_ofList, sheetChars,
    List.map_map, List.flatMap_map]
  exact List.flatMap_congr fun line _ => by simp

end Sheet

/-- The lines of a row that was written read back, where its captions fit. -/
theorem Row.IsWritten.isSet {locale : Locale} {r : LaidRow} (h : r.row.IsWritten locale)
    (hend : ∀ t ∈ r.row.leaves, t.KeepsEnd) (hfits : r.row.leaves.IsChain (Token.Fits locale)) :
    ∀ line ∈ r.lines, line.IsSet locale := by
  intro line hline
  obtain ⟨i, hi, rfl⟩ := List.mem_mapIdx.1 hline
  have hl : r.row.lines[i] ∈ r.row.lines := List.getElem_mem hi
  generalize r.row.lines[i] = l at hl
  have hmem : ∀ t ∈ l.words, t ∈ r.row.leaves := fun t ht => by
    rw [Row.leaves_eq_lines]
    exact List.mem_flatMap.2 ⟨l, hl, List.mem_append_left _ ht⟩
  by_cases hne : l.words = []
  · rw [hne]
    exact .blank _
  · obtain ⟨text, htext⟩ := h.written l hl hne
    exact .words _ htext (h.wellFormed.isChain hfits l hl) (h.wellFormed.lines l hl).1
      fun t ht => hend t (hmem t ht)

namespace Reading

variable {o : ReadingOptions} {text : List Char} {locale : Locale} {s : Scene} {tokens : List Token}

/-- The rows of a scene were written in the text that it was read from. -/
theorem exists_written_rows (h : ofText o text = success locale s tokens) : ∃ rows,
    s.Reads True rows ∧ tokens = Row.tokens rows ∧ ∀ r ∈ rows, r.IsWritten locale := by
  obtain ⟨-, hlex, rfl, hparse, rfl⟩ := of_success h
  obtain ⟨rows, hreads, -, hwell, hkept⟩ := Parsing.exists_greedy_rows hparse
  rw [Parsing.kept_tokens] at hkept
  refine ⟨rows, hreads, hkept.symm, Scanned.isWritten hwell (hkept ▸ ?_)⟩
  exact (Lexing.scanned_of_lexed (Lexing.lexed_of_errors_eq_nil hlex) 0 .start).fresh

/-- The comments of a scene that was read are comments when they are printed. -/
theorem isSet_comment (h : ofText o text = success locale s tokens) {c : Token}
    (hc : c ∈ sortByOffset (s.comments.map Comment.token)) (level : Nat) :
    (SheetLine.comment level c).IsSet locale := by
  obtain ⟨-, hlex, -, -, hscene⟩ := of_success h
  have hc : c ∈ (Lexing.ofText locale (o.source text)).comments := by
    have := (sortByOffset_perm _).subset hc
    rw [hscene] at this
    simpa [Function.comp_def] using this
  obtain ⟨hkind, text, hchars, htext⟩ :=
    Lexing.forall_mem_comments (Lexing.lexed_of_errors_eq_nil hlex) _ _ _ c hc
  exact .comment level hkind hchars htext

/-- The lines of a printed scene read back, if its captions fit. -/
theorem isSet_sheet (h : ofText o text = success locale s tokens)
    (hfit : CaptionsFit locale tokens) : ∀ line ∈ s.sheet, line.IsSet locale := by
  obtain ⟨rows, hreads, rfl, hwritten⟩ := exists_written_rows h
  have hrow : ∀ r ∈ rowsOf s.laid, r.IsWritten locale ∧ (∀ t ∈ r.leaves, t.KeepsEnd) ∧
      r.leaves.IsChain (Token.Fits locale) := by
    have hblank : ∀ t ∈ (Row.blank .newline).leaves, t.KeepsEnd :=
      List.forall_mem_singleton.2 fun hkind => TokenKind.noConfusion hkind
    refine hreads.forall_laid ⟨Row.isWritten_blank, hblank, .singleton _⟩ fun r hr => ?_
    exact ⟨hwritten r hr, fun t ht => hfit.ends t (List.mem_flatMap.2 ⟨r, hr, ht⟩),
      hfit.fits.infix (List.infix_of_mem_flatten (List.mem_map_of_mem hr))⟩
  refine forall_mem_arrange (fun level c hc => isSet_comment h hc level) fun p hp r hr => ?_
  obtain ⟨hwritten, hend, hfits⟩ := hrow _ (s.mem_rowsOf_laid hp hr)
  exact hwritten.isSet hend hfits

end Reading

end Wireframe
