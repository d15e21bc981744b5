import Wireframe.Proofs.Scene.Printed
import Wireframe.Proofs.Scene.Renaming
import Wireframe.Token.Lexing

/-!
# Parsing a layout

A layout keeps the structure of a scene. When the scene of a parse without errors is printed, the
tokens on the printed lines are parsed without an error, and to the same scene but for the ranges of
tokens, line ends and blank lines (`Parsing.reparse_laid_spec`). Printed again, it gives the same
lines.
-/

namespace Wireframe

/-! ## Bare tokens -/

namespace Token

/-- A token without its place; every line end is the same. -/
def bare (t : Token) : Token :=
  if t.kind = .lineEnd then newline else { t with range := .origin }

@[simp] theorem bare_newline : newline.bare = newline := rfl

theorem bare_of_ne {t : Token} (h : t.kind ≠ .lineEnd) : t.bare = { t with range := .origin } :=
  if_neg h

theorem isRenaming_bare : IsRenaming bare := by
  refine .of_image (fun t => ?_) fun t ht => ?_
  · rw [bare]
    split
    · next h => exact h.symm
    · rfl
  · rw [bare_of_ne (by simp [ht])]

theorem squeezed_bare {t : Token} (h : t.kind ≠ .lineEnd) : t.bare.squeezed = t.squeezed := by
  rw [bare_of_ne h]
  rfl

theorem trimmed_bare {t : Token} (h : t.kind ≠ .lineEnd) : t.bare.trimmed = t.trimmed := by
  rw [bare_of_ne h]
  rfl

end Token

namespace Scene

/-- A scene without the places of its tokens and without blank lines; all its lines end in the same
    way. -/
def bare (s : Scene) : Scene :=
  (s.map Token.bare).withoutBlanks

end Scene

/-! ## The rows of a layout with other tokens -/

namespace LaidRow

/-- A row of a layout with other tokens. -/
def map (f : Token → Token) (r : LaidRow) : LaidRow :=
  ⟨r.level, r.row.map f⟩

end LaidRow

namespace Passage

/-- A passage wherever it stands. -/
def unplaced (p : Passage) : Passage :=
  { p with line := 0 }

/-- A passage with other tokens, wherever it stands. -/
def map (f : Token → Token) (p : Passage) : Passage :=
  ⟨p.level, 0, p.rows.map (LaidRow.map f)⟩

end Passage

/-- Passages of members that are changed. -/
theorem Passage.unplaced_flatMap {α : Type} {g : α → α} {passages : α → List Passage}
    {f : Passage → Passage} (h : ∀ x, (passages (g x)).map unplaced = (passages x).map f)
    (xs : List α) : ((xs.map g).flatMap passages).map unplaced = (xs.flatMap passages).map f := by
  rw [List.flatMap_map, List.map_flatMap, List.map_flatMap]
  exact List.flatMap_congr fun x _ => h x

section Map

variable {f : Token → Token}

variable (hf : f .newline = .newline)

include hf

theorem Passage.map_blank : map f blank = blank := by
  rw [blank, map, List.map_singleton, LaidRow.map, Row.map, hf]

theorem Item.passage_map (level : Nat) (afterList : Bool) (i : Item) :
    ((i.map f).passage level afterList).unplaced = (i.passage level afterList).map f := by
  cases afterList with
  | false => rfl
  | true =>
    have hblank := congrArg Passage.rows (Passage.map_blank hf)
    exact congrArg (fun rows => (⟨level, 0, rows ++ [⟨level, .item (i.map f)⟩]⟩ : Passage))
      hblank.symm

theorem ItemList.passages_map (level : Nat) (l : ItemList) :
    ((l.map f).passages level).map .unplaced = (l.passages level).map (Passage.map f) := by
  have hdepth : (l.map f).depth = l.depth := by
    rw [depth, depth, map, Option.isSome_map]
  rw [passages, passages, hdepth, List.map_cons, List.map_cons, map, List.map_map, List.map_map,
    List.map_map]
  exact congrArg (_ :: ·) (List.map_congr_left fun i _ => i.passage_map hf _ false)

theorem ElementGroup.passagesOf_map (level : Nat) (afterList : Bool) (entries : List Element) :
    (passagesOf level afterList (entries.map (Element.map f))).map .unplaced =
      (passagesOf level afterList entries).map (Passage.map f) := by
  induction entries generalizing afterList with
  | nil => rfl
  | cons e entries ih =>
    cases e with
    | item i => exact congrArg₂ List.cons (i.passage_map hf level afterList) (ih false)
    | list l =>
      rw [List.map_cons, Element.map, passagesOf, passagesOf, List.map_append, List.map_append,
        l.passages_map hf, ih]

theorem ElementGroup.passages_map (level : Nat) (g : ElementGroup) :
    ((g.map f).passages level).map .unplaced = (g.passages level).map (Passage.map f) := by
  obtain ⟨_ | d, entries, lineEnds⟩ := g
  · cases entries with
    | nil => exact congrArg ([·]) (Passage.map_blank hf).symm
    | cons e entries => exact passagesOf_map hf level false (e :: entries)
  · exact congrArg (_ :: ·) (passagesOf_map hf level false entries)

theorem Block.passages_map (b : Block) :
    (b.map f).passages.map .unplaced = b.passages.map (Passage.map f) :=
  congrArg (_ :: ·) (Passage.unplaced_flatMap (ElementGroup.passages_map hf 1) b.groups)

theorem BlockGroup.passages_map (g : BlockGroup) :
    (g.map f).passages.map .unplaced = g.passages.map (Passage.map f) := by
  obtain ⟨_ | a, blocks, lineEnds⟩ := g
  · cases blocks with
    | nil => exact congrArg ([·]) (Passage.map_blank hf).symm
    | cons b blocks => exact Passage.unplaced_flatMap (Block.passages_map hf) (b :: blocks)
  · exact congrArg (_ :: ·) (Passage.unplaced_flatMap (Block.passages_map hf) blocks)

theorem Page.passages_map (p : Page) :
    (p.map f).passages.map .unplaced = p.passages.map (Passage.map f) :=
  congrArg (_ :: ·) (Passage.unplaced_flatMap (BlockGroup.passages_map hf) p.groups)

/-- With other tokens, a scene has the same passages. -/
theorem Scene.passages_map (s : Scene) :
    (s.map f).passages.map .unplaced = s.passages.map (Passage.map f) :=
  Passage.unplaced_flatMap (Page.passages_map hf) s.pages

/-- With other tokens, a scene is laid out in the same way. -/
theorem Scene.laid_map (s : Scene) : (s.map f).laid = s.laid.map (LaidRow.map f) := by
  have hrows := congrArg (List.flatMap Passage.rows) (s.passages_map hf)
  rw [List.flatMap_map, List.flatMap_map] at hrows
  rw [← Scene.rows_passages, ← s.rows_passages, List.map_flatMap]
  exact hrows

end Map

/-! ## What a layout shows is bare -/

section Bare

theorem Value.trimmed_bare {v : Value} (h : v.IsWellFormed) :
    (v.map Token.bare).token.trimmed = v.token.trimmed := by
  rw [token_map, Token.trimmed_bare]
  rw [h]
  cases v <;> exact nofun

theorem Value.trimmed_bare_title {title : Option Value} (h : ∀ v ∈ title, v.IsWellFormed) :
    (title.map (Value.map Token.bare)).toList.map (·.token.trimmed) =
      title.toList.map (·.token.trimmed) := by
  cases title with
  | none => rfl
  | some v => exact congrArg ([·]) (trimmed_bare (h v rfl))

theorem Literal.trimmed_bare {l : Literal} (h : l.IsWellFormed) :
    (l.map Token.bare).token.trimmed = l.token.trimmed := by
  rw [token_map, Token.trimmed_bare]
  rw [h]
  cases l <;> exact nofun

theorem Token.squeezed_bare_keyword {t : Token} {k : Keyword} (h : t.kind = .keyword k) :
    t.bare.squeezed = t.squeezed :=
  squeezed_bare (by rw [h]; exact nofun)

theorem Direction.line_bare {d : Direction} (h : d.IsWellFormed) :
    (d.map Token.bare).line = d.line := by
  have hcount : (d.count.map (Count.map Token.bare)).toList.map (·.token.trimmed) =
      d.count.toList.map (·.token.trimmed) := by
    cases hc : d.count with
    | none => rfl
    | some c =>
      refine congrArg ([·]) (Token.trimmed_bare fun hkind => ?_)
      have := h.count c hc
      rw [Count.IsWellFormed, Token.count?, hkind] at this
      cases this
  rw [line, line]
  exact congrArg joinParts (congrArg₂ (· ++ [·]) hcount (Token.squeezed_bare_keyword h.keyword))

theorem Item.line_bare {i : Item} (h : i.IsWellFormed) : (i.map Token.bare).line = i.line := by
  obtain ⟨⟨kind, k, value⟩ | l, lineEnd⟩ := i
  · exact congrArg joinParts (congrArg₂ List.cons (Token.squeezed_bare_keyword h.content.1)
      (Value.trimmed_bare_title h.content.2))
  · exact Literal.trimmed_bare h.content

theorem Alignment.line_bare {a : Alignment} (h : a.IsWellFormed) :
    (a.map Token.bare).line = a.line := by
  have hnames : (a.names.map (Literal.map Token.bare)).map (·.token.trimmed) =
      a.names.map (·.token.trimmed) := by
    rw [List.map_map]
    exact List.map_congr_left fun l hl => Literal.trimmed_bare (h.names l hl)
  rw [line, line, ← Token.squeezed_bare_keyword h.keyword, ← Token.squeezed_bare_keyword h.aligned,
    ← Direction.line_bare h.direction, ← hnames]
  rfl

theorem Row.texts_bare {r : Row} (h : r.IsWellFormed) (level : Nat) :
    (r.map Token.bare).texts level = r.texts level := by
  cases r with
  | blank t => rfl
  | page d k t e =>
    have hdevice : (d.map (DeviceTag.map Token.bare)).toList.map (·.token.squeezed) =
        d.toList.map (·.token.squeezed) := by
      cases d with
      | none => rfl
      | some tag => exact congrArg ([·]) (Token.squeezed_bare_keyword (h.1 tag rfl))
    rw [texts, Page.line, ← hdevice, ← Token.squeezed_bare_keyword h.2.1,
      ← Value.trimmed_bare h.2.2.1]
    rfl
  | alignment a => exact congrArg (fun line => [_ ++ line]) (Alignment.line_bare h)
  | block k t e =>
    rw [texts, Block.line, ← Token.squeezed_bare_keyword h.1, ← Value.trimmed_bare_title h.2.1]
    rfl
  | direction d => exact congrArg (fun line => [_ ++ line]) (Direction.line_bare h)
  | list k t b c e =>
    have hparts :
        (ItemList.mk k.bare (t.map (Value.map Token.bare)) (b.map Token.bare) c.bare e.bare
        []).titleParts = (ItemList.mk k t b c e []).titleParts :=
      congrArg₂ List.cons (Token.squeezed_bare_keyword h.1) (Value.trimmed_bare_title h.2.1)
    rw [map, texts, texts, hparts, Token.squeezed_bare_keyword h.2.2.2.1, Option.isSome_map]
  | item i => exact congrArg (fun line => [_ ++ line]) (Item.line_bare h)

/-- Well-formed rows are shown as they are when bare. -/
theorem LaidRow.texts_bare {laid : List LaidRow} (h : ∀ r ∈ rowsOf laid, r.IsWellFormed) :
    (laid.map (map Token.bare)).flatMap texts = laid.flatMap texts := by
  rw [List.flatMap_map]
  exact List.flatMap_congr fun r hr => Row.texts_bare (h _ (List.mem_map_of_mem hr)) r.level

end Bare

/-! ## Blank lines of a layout -/

section Relined

variable {f : Token → Token}

theorem ElementGroup.passages_relined (g : ElementGroup) :
    (g.relined.passages 1).map Passage.unplaced = (g.passages 1).map Passage.unplaced :=
  rfl

theorem Block.passages_relined (b : Block) :
    b.relined.passages.map Passage.unplaced = b.passages.map Passage.unplaced :=
  congrArg (_ :: ·) (Passage.unplaced_flatMap ElementGroup.passages_relined b.groups)

theorem BlockGroup.passages_relined (g : BlockGroup) :
    g.relined.passages.map Passage.unplaced = g.passages.map Passage.unplaced := by
  obtain ⟨_ | a, blocks, lineEnds⟩ := g
  · cases blocks with
    | nil => rfl
    | cons b blocks => exact Passage.unplaced_flatMap Block.passages_relined (b :: blocks)
  · exact congrArg (_ :: ·) (Passage.unplaced_flatMap Block.passages_relined blocks)

theorem Page.passages_relined (p : Page) :
    p.relined.passages.map Passage.unplaced = p.passages.map Passage.unplaced :=
  congrArg (_ :: ·) (Passage.unplaced_flatMap BlockGroup.passages_relined p.groups)

/-- Passages do not depend on the blank lines. -/
theorem Scene.passages_relined (s : Scene) :
    s.relined.passages.map Passage.unplaced = s.passages.map Passage.unplaced :=
  Passage.unplaced_flatMap Page.passages_relined s.pages

/-- A layout does not depend on the blank lines. -/
theorem Scene.laid_relined (s : Scene) : s.relined.laid = s.laid := by
  have hrows := congrArg (List.flatMap Passage.rows) s.passages_relined
  rw [List.flatMap_map, List.flatMap_map] at hrows
  rw [← Scene.rows_passages, ← s.rows_passages]
  exact hrows

theorem Block.withoutBlanks_relined (b : Block) :
    (b.relined.map f).withoutBlanks = (b.map f).withoutBlanks := by
  simp only [withoutBlanks, map, relined, List.map_map]
  rfl

theorem BlockGroup.withoutBlanks_relined (g : BlockGroup) :
    (g.relined.map f).withoutBlanks = (g.map f).withoutBlanks := by
  simp only [withoutBlanks, map, relined, List.map_map]
  exact congrArg (BlockGroup.mk _ · [])
    (List.map_congr_left fun b _ => Block.withoutBlanks_relined b)

theorem Page.withoutBlanks_relined (p : Page) :
    (p.relined.map f).withoutBlanks = (p.map f).withoutBlanks := by
  simp only [withoutBlanks, map, relined, List.map_map]
  exact congrArg _ (List.map_congr_left fun g _ => g.withoutBlanks_relined)

theorem Scene.withoutBlanks_relined (s : Scene) :
    (s.relined.map f).withoutBlanks = (s.map f).withoutBlanks := by
  simp only [withoutBlanks, map, relined, List.map_map]
  exact congrArg (Scene.mk · [] _) (List.map_congr_left fun p _ => Page.withoutBlanks_relined p)

theorem Scene.bare_relined (s : Scene) : s.relined.bare = s.bare :=
  s.withoutBlanks_relined

end Relined

/-! ## Parsing a layout -/

/-- Without comments, a scene is printed as the lines of its layout. -/
theorem Scene.layout_of_comments {s : Scene} (h : s.comments = []) :
    s.layout = String.join ((s.laid.flatMap LaidRow.texts).map (· ++ "\n")) := by
  obtain ⟨lines, hlayout, hlines⟩ := s.exists_layout
  rw [h] at hlines
  rw [hlayout, hlines.eq_of_nil]

namespace Parsing

/-- A layout is parsed to its own rows. -/
theorem ofTokens_laid {s : Scene} {rows : List Row} (h : s.Reads True rows)
    (hcomments : s.comments = [])
    (hrows : ∀ r ∈ rows, r.IsWellFormed ∧ ∀ t ∈ r.leaves, t.kind.isSkipped = false) (limit : Nat) :
    ofTokens limit (Row.tokens (rowsOf s.laid)) = ⟨s.relined, []⟩ := by
  have hlaid :=
    h.forall_laid (p := fun r => r.IsWellFormed ∧ ∀ t ∈ r.leaves, t.kind.isSkipped = false)
    ⟨rfl, fun t ht => List.mem_singleton.1 ht ▸ rfl⟩ hrows
  refine ofTokens_of_reads (Scene.reads_laid h.isGrouped) hcomments
    (fun r hr => (hlaid r hr).1) ?_ limit
  refine kept_eq_self fun t ht => ?_
  obtain ⟨r, hr, ht⟩ := List.mem_flatMap.1 ht
  exact (hlaid r hr).2 t ht

/-- The scene of a parse without errors is printed as the lines of its layout, with comments in
    between if it is given any. The tokens on these lines, wherever they are now and whatever the
    lines end with, are parsed without an error to the same scene, but for blank lines, and that is
    printed as the same lines again. -/
theorem reparse_laid_spec {limit : Nat} {tokens : List Token}
    (h : (ofTokens limit tokens).errors = []) :
    (∀ comments, ∃ lines,
      { (ofTokens limit tokens).scene with comments := comments }.layout =
          String.join (lines.map (· ++ "\n")) ∧
        Commented (sortByOffset (comments.map Comment.token))
          ((ofTokens limit tokens).scene.laid.flatMap LaidRow.texts) lines) ∧
      ∀ relaid : List Token,
        relaid.map Token.bare =
            (Row.tokens (rowsOf (ofTokens limit tokens).scene.laid)).map Token.bare →
          ∀ limit', (ofTokens limit' relaid).errors = [] ∧
            (ofTokens limit' relaid).scene.bare = (ofTokens limit tokens).scene.bare ∧
              (ofTokens limit' relaid).scene.layout =
                String.join
                  (((ofTokens limit tokens).scene.laid.flatMap LaidRow.texts).map (· ++ "\n")) := by
  obtain ⟨rows, hreads, hnone, hwell, htokens⟩ := exists_greedy_rows h
  have hrows : ∀ r ∈ rows, r.IsWellFormed ∧ ∀ t ∈ r.leaves, t.kind.isSkipped = false := by
    refine fun r hr => ⟨hwell r hr, fun t ht => ?_⟩
    have ht : t ∈ kept tokens := htokens ▸ List.mem_flatMap.2 ⟨r, hr, ht⟩
    simpa using (List.mem_filter.1 ht).2
  -- what the tokens were does not matter from here on, only which scene they make
  generalize (ofTokens limit tokens).scene = s at hreads hnone
  refine ⟨fun comments => { s with comments := comments }.exists_layout, ?_⟩
  intro relaid hrelaid limit'
  have hlaid := ofTokens_laid hreads hnone hrows
  have herrors (limit : Nat) : (ofTokens limit relaid).errors = [] := by
    rw [← errors_map_eq_nil_iff Token.isRenaming_bare limit 1, hrelaid,
      errors_map_eq_nil_iff Token.isRenaming_bare 1 1, hlaid]
  have hscene : (ofTokens limit' relaid).scene.map Token.bare = s.relined.map Token.bare := by
    -- both are parsed to the same once they are bare
    have hmap := ofTokens_map Token.isRenaming_bare (herrors limit') 1
    rw [hrelaid, ofTokens_map Token.isRenaming_bare (by rw [hlaid 1]) 1, hlaid 1] at hmap
    exact (congrArg Parsing.scene hmap).symm
  refine ⟨herrors limit', ?_, ?_⟩
  · rw [Scene.bare, hscene, ← s.bare_relined, Scene.bare]
  -- what is shown of a scene is bare, and depends neither on its line ends nor on its blank lines
  · obtain ⟨rows', hreads', hnone', hwell', -⟩ := exists_greedy_rows (herrors limit')
    have hlaid' : (ofTokens limit' relaid).scene.laid.map (LaidRow.map Token.bare) =
        s.laid.map (LaidRow.map Token.bare) := by
      rw [← Scene.laid_map Token.bare_newline, hscene, Scene.laid_map Token.bare_newline,
        s.laid_relined]
    have hblank : (Row.blank .newline).IsWellFormed := rfl
    rw [Scene.layout_of_comments hnone', ← LaidRow.texts_bare (hreads'.forall_laid hblank hwell'),
      hlaid', LaidRow.texts_bare (hreads.forall_laid hblank hwell)]

/-- The blank line after a list stays, and those that mean nothing go. -/
theorem reparse_laid_spec_after_list :
    let tokens := (Lexing.ofText .english
      "Page: A\n\nBlock: B\nlist consists of\nlink\n\n\nlink\n".toList).tokens
    let relaid := (Lexing.ofText .english
      "Page: A\nBlock: B\n    list consists of\n        link\n\n    link\n".toList).tokens
    (ofTokens 1 tokens).errors = [] ∧
      relaid.map Token.bare =
        (Row.tokens (rowsOf (ofTokens 1 tokens).scene.laid)).map Token.bare ∧
      (ofTokens 9 relaid).errors = [] ∧
      (ofTokens 9 relaid).scene.bare = (ofTokens 1 tokens).scene.bare := by
  intro tokens relaid
  have herrors : (ofTokens 1 tokens).errors = [] := by
    decide +kernel
  have hrelaid : relaid.map Token.bare =
      (Row.tokens (rowsOf (ofTokens 1 tokens).scene.laid)).map Token.bare := by
    decide +kernel
  obtain ⟨hnone, hscene, -⟩ := (reparse_laid_spec herrors).2 relaid hrelaid 9
  exact ⟨herrors, hrelaid, hnone, hscene⟩

end Parsing

end Wireframe
