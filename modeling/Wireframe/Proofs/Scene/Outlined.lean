import Wireframe.Proofs.Grammar.Resilience
import Wireframe.Proofs.Reading
import Wireframe.Proofs.Scene.Drawing
import Wireframe.Proofs.Scene.Relexed
import Wireframe.Proofs.Text.Legible

/-!
# The outline of a scene

A scene that is parsed from a text (`Scene.IsParsed`) has an outline that can be drawn and read
back: no label in it has a line feed, since a label shows words of the scene, and a line feed is
nowhere in the text but in the line ends. So its drawing tells its shape, and has a line for each of
its nodes (`Scene.drawing_spec`).
-/

namespace Wireframe

open Text

/-! ## Words of one line -/

namespace Token

/-- A token has no line feed in it, unless it is a line end. -/
def IsUnbroken (t : Token) : Prop :=
  t.kind ≠ .lineEnd → '\n' ∉ t.chars

end Token

/-- The tokens of a lexing are in lines, whatever its errors are. -/
theorem Lexing.isUnbroken_tokens (locale : Locale) (text : List Char) :
    ∀ t ∈ (Lexing.ofText locale text).tokens, t.IsUnbroken := by
  intro t ht hkind
  have hseg := isSegmented_segmentsOf locale text
  rw [hseg.tokens_eq, List.mem_filterMap] at ht
  obtain ⟨segment, hsegment, htoken⟩ := ht
  cases segment with
  | token u =>
    obtain rfl : u = t := Option.some.inj htoken
    have hpiece := hseg.splits.lineFeed _ (List.mem_map_of_mem hsegment)
    exact hpiece.2 (mt Option.some.inj hkind)
  | _ => cases htoken

theorem mem_of_mem_stripDelimiters {text : List Char} {c : Char} (h : c ∈ stripDelimiters text) :
    c ∈ text :=
  List.mem_of_mem_tail (List.dropLast_subset _ h)

theorem mem_of_mem_unescape {text : List Char} {c : Char} (h : c ∈ unescape text) : c ∈ text := by
  fun_induction unescape text with
  | case1 d rest _ ih =>
    rcases List.mem_cons.1 h with rfl | h
    · exact List.mem_cons_of_mem _ List.mem_cons_self
    · exact List.mem_cons_of_mem _ (List.mem_cons_of_mem _ (ih h))
  | case2 d rest _ ih =>
    rcases List.mem_cons.1 h with rfl | h
    · exact List.mem_cons_self
    · exact List.mem_cons_of_mem _ (ih h)
  | case3 d rest _ ih =>
    rcases List.mem_cons.1 h with rfl | h
    · exact List.mem_cons_self
    · exact List.mem_cons_of_mem _ (ih h)
  | case4 => exact h

namespace Literal

theorem mem_chars_of_mem_text {l : Literal} {c : Char} (h : c ∈ l.text.toList) :
    c ∈ l.token.chars := by
  cases l with
  | quotation t =>
    rw [text, String.toList_ofList] at h
    exact mem_of_mem_stripDelimiters (mem_of_mem_unescape h)
  | placeholder t =>
    rw [text, String.toList_ofList] at h
    exact mem_of_mem_stripDelimiters h

theorem IsWellFormed.lineFeed_notMem_text {l : Literal} (h : l.IsWellFormed)
    (ht : l.token.IsUnbroken) : '\n' ∉ l.text.toList :=
  fun hmem => ht h.isPrinted.ne_lineEnd (mem_chars_of_mem_text hmem)

end Literal

namespace Value

theorem mem_chars_of_mem_text {v : Value} {c : Char} (h : c ∈ v.text.toList) :
    c ∈ v.token.chars := by
  cases v with
  | freeText t =>
    rw [text, String.toList_ofList] at h
    exact mem_of_mem_trim h
  | quotation t => exact Literal.mem_chars_of_mem_text (l := .quotation t) h
  | placeholder t => exact Literal.mem_chars_of_mem_text (l := .placeholder t) h

theorem IsWellFormed.lineFeed_notMem_text {v : Value} (h : v.IsWellFormed)
    (ht : v.token.IsUnbroken) : '\n' ∉ v.text.toList :=
  fun hmem => ht h.isPrinted.ne_lineEnd (mem_chars_of_mem_text hmem)

/-- What stands for a title has no line feed in it. -/
theorem lineFeed_notMem_title {title : Option Value} (h : ∀ v ∈ title, v.IsWellFormed)
    (ht : ∀ t ∈ title.toList.map Value.token, t.IsUnbroken) :
    '\n' ∉ ((title.map Value.text).getD untitled).toList := by
  cases title with
  | none => decide
  | some v => exact (h v rfl).lineFeed_notMem_text (ht _ List.mem_cons_self)

end Value

theorem lineFeed_notMem_numbered {one many : String} (n : Nat) (hone : '\n' ∉ one.toList)
    (hmany : '\n' ∉ many.toList) : '\n' ∉ (numbered n one many).toList := by
  have hdigits : '\n' ∉ (toString n).toList := by
    rw [Nat.toString_eq_ofList_toDigits, String.toList_ofList]
    intro hmem
    obtain ⟨i, hi, heq⟩ := exists_digitChar_of_mem (by decide) hmem
    exact (by decide : ∀ i < 10, '\n' ≠ Nat.digitChar i) i hi heq
  rw [numbered]
  split
  · simpa using hone
  · rw [String.toList_append, String.toList_append]
    simpa [hmany] using hdigits

theorem lineFeed_notMem_intercalate {separator : String} {parts : List String}
    (hseparator : '\n' ∉ separator.toList) (hparts : ∀ part ∈ parts, '\n' ∉ part.toList) :
    '\n' ∉ (separator.intercalate parts).toList := by
  induction parts with
  | nil => simp
  | cons part rest ih =>
    obtain ⟨hpart, hrest⟩ := List.forall_mem_cons.1 hparts
    cases rest with
    | nil => simpa using hpart
    | cons next rest =>
      rw [String.intercalate_cons_of_ne_nil (List.cons_ne_nil _ _)]
      simpa [hpart, hseparator] using ih hrest

/-! ## Outlines -/

/-- A row is well-formed, and its tokens are in lines. -/
def Row.IsUnbroken (r : Row) : Prop :=
  r.IsWellFormed ∧ ∀ t ∈ r.leaves, t.IsUnbroken

theorem Direction.isPlain_outline (d : Direction) : d.outline.IsPlain := by
  have haxis : '\n' ∉ d.axis.name.toList := by cases d.axis <;> decide
  have hmany : '\n' ∉ (d.axis.name ++ "s").toList := by simpa using haxis
  refine .node (by decide) ?_ (List.forall_mem_nil _)
  cases d.count with
  | none => exact hmany
  | some count => exact lineFeed_notMem_numbered _ haxis hmany

theorem Item.lineFeed_notMem_kindName (i : Item) : '\n' ∉ i.kindName.toList := by
  rw [kindName]
  rcases i.kind? with _ | _ | _ <;> decide

theorem Item.lineFeed_notMem_text {i : Item} (h : Row.IsUnbroken (.item i)) :
    ∀ text ∈ i.text?, '\n' ∉ text.toList := by
  obtain ⟨⟨hcontent, -⟩, hleaves⟩ := h
  obtain ⟨⟨_, _, value⟩ | literal, _⟩ := i
  · intro text htext
    obtain ⟨v, rfl, rfl⟩ := Option.map_eq_some_iff.1 htext
    refine (hcontent.2 v rfl).lineFeed_notMem_text (hleaves _ ?_)
    simp [Row.leaves, leaves, contentLeaves]
  · rintro _ ⟨⟩
    refine Literal.IsWellFormed.lineFeed_notMem_text hcontent (hleaves _ ?_)
    simp [Row.leaves, leaves, contentLeaves]

theorem Item.isPlain_outline {i : Item} (h : Row.IsUnbroken (.item i)) : i.outline.IsPlain := by
  refine .node (by decide) ?_ (List.forall_mem_nil _)
  have htext := lineFeed_notMem_text h
  cases hcase : i.text? with
  | none => exact i.lineFeed_notMem_kindName
  | some text => simp [i.lineFeed_notMem_kindName, htext text hcase]

theorem ItemList.isPlain_outline {l : ItemList} (h : ∀ r ∈ l.rows, r.IsUnbroken) :
    l.outline.IsPlain := by
  obtain ⟨⟨⟨-, htitle, -⟩, hleaves⟩, hitems⟩ := List.forall_mem_cons.1 h
  refine .node (by decide) (Value.lineFeed_notMem_title htitle fun t ht => hleaves t ?_) ?_
  · simp [headRow, Row.leaves, ht]
  · exact List.forall_mem_map.2 fun i hi =>
      Item.isPlain_outline (hitems _ (List.mem_map_of_mem hi))

theorem Element.isPlain_outline {e : Element} (h : ∀ r ∈ e.rows, r.IsUnbroken) :
    e.outline.IsPlain := by
  cases e with
  | item i => exact Item.isPlain_outline (h _ List.mem_cons_self)
  | list l => exact ItemList.isPlain_outline h

section Reads

variable {greedy : Prop} {rows : List Row}

theorem ElementGroup.Reads.isPlain_outline {g : ElementGroup} (h : g.Reads greedy rows)
    (hrows : ∀ r ∈ rows, r.IsUnbroken) : g.outline.IsPlain := by
  obtain ⟨rest, hrest, rfl⟩ := h
  have hentries := hrest.forall_member (p := fun e => e.outline.IsPlain)
    (List.forall_mem_append.1 hrows).2 fun e r he => he ▸ Element.isPlain_outline
  refine .node (by decide) (lineFeed_notMem_numbered _ (by decide) (by decide)) ?_
  exact List.forall_mem_append.2
    ⟨List.forall_mem_map.2 fun d _ => d.isPlain_outline, List.forall_mem_map.2 hentries⟩

theorem Block.Reads.isPlain_outline {b : Block} (h : b.Reads greedy rows)
    (hrows : ∀ r ∈ rows, r.IsUnbroken) : b.outline.IsPlain := by
  obtain ⟨rest, hrest, rfl⟩ := h
  obtain ⟨⟨⟨-, htitle, -⟩, hleaves⟩, hrows⟩ := List.forall_mem_cons.1 hrows
  refine .node (by decide) (Value.lineFeed_notMem_title htitle fun t ht => hleaves t ?_) ?_
  · simp [headRow, Row.leaves, ht]
  · exact List.forall_mem_map.2 (hrest.forall_member hrows fun g r hg => hg.1.isPlain_outline)

theorem Alignment.isPlain_outline {a : Alignment} (h : Row.IsUnbroken (.alignment a)) :
    a.outline.IsPlain := by
  obtain ⟨hwell, hleaves⟩ := h
  refine .node (by decide) ?_ (List.forall_mem_singleton.2 a.direction.isPlain_outline)
  split
  · decide
  · refine lineFeed_notMem_intercalate (by decide) (List.forall_mem_map.2 fun l hl => ?_)
    refine (hwell.names l hl).lineFeed_notMem_text (hleaves _ ?_)
    have hmem : l.token ∈ separated (a.names.map Literal.token) a.commas :=
      (separated_perm _ _).symm.subset (List.mem_append_left _ (List.mem_map_of_mem hl))
    simp [Row.leaves, written, hmem]

theorem BlockGroup.Reads.isPlain_outline {g : BlockGroup} (h : g.Reads greedy rows)
    (hrows : ∀ r ∈ rows, r.IsUnbroken) : g.outline.IsPlain := by
  obtain ⟨rest, hrest, rfl⟩ := h
  obtain ⟨halignment, hrows⟩ := List.forall_mem_append.1 hrows
  refine .node (by decide) (lineFeed_notMem_numbered _ (by decide) (by decide)) ?_
  refine List.forall_mem_append.2 ⟨List.forall_mem_map.2 fun a ha => ?_, List.forall_mem_map.2 ?_⟩
  · exact Alignment.isPlain_outline (halignment _ (List.mem_map_of_mem ha))
  · exact hrest.forall_member hrows fun b r hb => hb.isPlain_outline

theorem Page.Reads.isPlain_outline {p : Page} (h : p.Reads greedy rows)
    (hrows : ∀ r ∈ rows, r.IsUnbroken) : p.outline.IsPlain := by
  obtain ⟨rest, hrest, rfl⟩ := h
  obtain ⟨⟨⟨-, -, htitle, -⟩, hleaves⟩, hrows⟩ := List.forall_mem_cons.1 hrows
  refine .node (by decide) (htitle.lineFeed_notMem_text (hleaves _ ?_)) ?_
  · simp [headRow, Row.leaves]
  · exact List.forall_mem_map.2 (hrest.forall_member hrows fun g r hg => hg.1.isPlain_outline)

theorem Scene.Reads.isPlain_outline {s : Scene} (h : s.Reads greedy rows)
    (hrows : ∀ r ∈ rows, r.IsUnbroken) : s.outline.IsPlain :=
  .node (by decide) (lineFeed_notMem_numbered _ (by decide) (by decide))
    (List.forall_mem_map.2 (h.forall_member hrows fun _ _ hp => hp.isPlain_outline))

end Reads

namespace Scene

/-- A scene has the pages that were parsed from some text, in some language and up to
    some number of errors. -/
def IsParsed (s : Scene) : Prop :=
  ∃ limit locale text,
    s.pages = (Parsing.ofTokens limit (Lexing.ofText locale text).tokens).scene.pages

theorem IsParsed.isPlain_outline {s : Scene} (h : s.IsParsed) : s.outline.IsPlain := by
  obtain ⟨limit, locale, text, hpages⟩ := h
  obtain ⟨rows, hreads, -, hwell, hsub, -⟩ :=
    Parsing.exists_rows limit (Lexing.ofText locale text).tokens
  have hplain := hreads.isPlain_outline fun r hr => ⟨hwell r hr, fun t ht =>
    Lexing.isUnbroken_tokens locale text t
      ((hsub.trans List.filter_sublist).subset (List.mem_flatMap_of_mem hr ht))⟩
  -- the range of a scene also covers its comments, but is not shown
  obtain ⟨hrule, hlabel, hchildren⟩ := hplain
  rw [outline, hpages]
  exact .mk hrule hlabel hchildren

/-- Two scenes that are parsed have the same drawing just when the trees of their outlines have the
    same shape, and the same rules and labels, as far as these are shown. A drawing has a line for
    each node, with its caption, a parent before its children. -/
theorem drawing_spec {s other : Scene} (h : s.IsParsed) (hother : other.IsParsed) :
    (s.drawing false = other.drawing false ↔ s.outline.Alike other.outline) ∧
      ∃ lines, s.drawing false = String.join (lines.map (· ++ "\n")) ∧
        List.Forall₂ Outline.IsLineOf lines s.outline.preorder :=
  ⟨Outline.drawing_eq_iff h.isPlain_outline hother.isPlain_outline,
    Outline.exists_drawing_eq h.isPlain_outline⟩

/-- Keywords are not drawn: a screen with a link looks like a page with a button. A title may look
    like a part of a drawing. -/
theorem drawing_spec_synonyms : ∃ s other : Scene, s.IsParsed ∧ other.IsParsed ∧ s ≠ other ∧
    s.outline.Alike other.outline ∧ s.outline.preorder.length = 6 ∧
      ∃ lines : List String, s.drawing false = String.join (lines.map (· ++ "\n")) ∧
        lines.length = 6 := by
  obtain ⟨text, text', hne, hdrawing, hlength⟩ : ∃ text text',
      (Parsing.ofTokens 9 (Lexing.ofText .english text).tokens).scene ≠
          (Parsing.ofTokens 9 (Lexing.ofText .english text').tokens).scene ∧
        drawing false (Parsing.ofTokens 9 (Lexing.ofText .english text).tokens).scene =
          drawing false (Parsing.ofTokens 9 (Lexing.ofText .english text').tokens).scene ∧
        (outline (Parsing.ofTokens 9 (Lexing.ofText .english text).tokens).scene).preorder.length =
          6 :=
    ⟨"Page: └─ □ A\nBlock:\nButton \"B\"\n".toList, "Screen: └─ □ A\nBlock:\nLink \"B\"\n".toList,
      by decide +kernel, by decide +kernel, by decide +kernel⟩
  have h : IsParsed (Parsing.ofTokens 9 (Lexing.ofText .english text).tokens).scene :=
    ⟨9, .english, text, rfl⟩
  have hother : IsParsed (Parsing.ofTokens 9 (Lexing.ofText .english text').tokens).scene :=
    ⟨9, .english, text', rfl⟩
  obtain ⟨halike, lines, hlines, hnodes⟩ := drawing_spec h hother
  exact ⟨_, _, h, hother, hne, halike.1 hdrawing, hlength, lines, hlines,
    hnodes.length_eq.trans hlength⟩

end Scene

/-- A scene that is read without an error is parsed. -/
theorem Reading.isParsed_of_success {o : ReadingOptions} {text : List Char} {locale : Locale}
    {s : Scene} {tokens : List Token} (h : Reading.ofText o text = .success locale s tokens) :
    s.IsParsed := by
  obtain ⟨-, -, rfl, -, rfl⟩ := of_success h
  exact ⟨_, _, _, rfl⟩

end Wireframe
