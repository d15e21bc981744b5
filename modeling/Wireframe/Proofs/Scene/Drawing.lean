import Mathlib.Data.List.Forall2
import Wireframe.Proofs.Text.Legible
import Wireframe.Scene.Outline

/-!
# Reading a drawing back

A drawing shows the shape of an outline: two outlines with the same drawing have nodes with the same
rules and the same labels, as far as these are shown, at the same places (`Outline.Alike`). Only two
things are asked of an outline, that all its nodes have icons of their own and that no label has a
line feed in it (`Outline.IsPlain`); a label may well look like a part of a drawing.

The children of a node are drawn under a *lead*, which says of each of its forebears whether a
brother follows. Whatever is drawn after them has a shorter lead, and so cannot be taken for one
more child (`Outline.IsOutside`). So brothers are read one by one, each with all that is below it,
and where they end, what is drawn after them begins (`Outline.read_drawNodes`).
-/

namespace Wireframe

open Text

namespace Outline

/-! ## Shapes -/

/-- Outlines of the same shape: with the same rules, and labels that are shown
    alike, at the same places. -/
inductive Alike : Outline → Outline → Prop
  | mk {o other : Outline} : o.rule = other.rule → cutLabel o.label = cutLabel other.label →
    List.Forall₂ Alike o.children other.children → Alike o other

/-- The rules that make the nodes of outlines. -/
def rules : List Rule :=
  [.scene, .page, .blocks, .alignment, .block, .elements, .direction, .item, .list]

/-- An outline that can be drawn: each of its nodes has an icon of its own
    and a label of one line. -/
inductive IsPlain : Outline → Prop
  | mk {o : Outline} : o.rule ∈ rules → '\n' ∉ o.label.toList → (∀ c ∈ o.children, IsPlain c) →
    IsPlain o

theorem IsPlain.node {rule : Rule} {label : String} {attributes : List (String × String)}
    {range : Range} {children : List Outline} (hrule : rule ∈ rules) (hlabel : '\n' ∉ label.toList)
    (hchildren : ∀ c ∈ children, c.IsPlain) : (node rule label attributes range children).IsPlain :=
  .mk hrule hlabel hchildren

theorem IsPlain.children {o : Outline} (h : o.IsPlain) : ∀ c ∈ o.children, c.IsPlain := by
  obtain ⟨-, -, hchildren⟩ := h
  exact hchildren

/-- Outlines are taken in by their first one, the children of this and the others. -/
theorem induction {motive : List Outline → Prop} (nil : motive [])
    (cons : ∀ o rest, motive o.children → motive rest → motive (o :: rest)) :
    ∀ outlines, motive outlines
  | [] => nil
  | .node rule label attributes range children :: rest =>
    cons (.node rule label attributes range children) rest (induction nil cons children)
      (induction nil cons rest)

mutual

/-- A node and those below it, a parent before its children. -/
def preorder : Outline → List Outline
  | node rule label attributes range children =>
    node rule label attributes range children :: preorders children

/-- Some nodes and those below them. -/
def preorders : List Outline → List Outline
  | [] => []
  | o :: rest => preorder o ++ preorders rest

end

theorem preorder_eq (o : Outline) : o.preorder = o :: preorders o.children := by
  cases o
  rw [preorder, children]

/-! ## Captions -/

theorem lineFeed_notMem_cutLabel {label : String} (h : '\n' ∉ label.toList) :
    '\n' ∉ (cutLabel label).toList := by
  rw [cutLabel]
  split
  · have htake : '\n' ∉ label.toList.take labelLimit := fun hmem => h (List.mem_of_mem_take hmem)
    simpa using htake
  · exact h

theorem IsPlain.lineFeed_notMem_caption {o : Outline} (h : o.IsPlain) :
    '\n' ∉ o.caption.toList := by
  obtain ⟨hrule, hlabel, -⟩ := h
  have hicon : ∀ rule ∈ rules, '\n' ∉ rule.icon.toList := by decide
  simp [caption, hicon _ hrule, lineFeed_notMem_cutLabel hlabel]

/-- An icon is one character, and tells the rule. -/
theorem IsPlain.caption_inj {o other : Outline} (h : o.IsPlain) (hother : other.IsPlain)
    (heq : o.caption.toList = other.caption.toList) :
    o.rule = other.rule ∧ cutLabel o.label = cutLabel other.label := by
  obtain ⟨hrule, -, -⟩ := h
  obtain ⟨hrule', -, -⟩ := hother
  have hicons : ∀ rule ∈ rules, rule.icon.toList.length = 1 ∧
      ∀ rule' ∈ rules, rule.icon.toList = rule'.icon.toList → rule = rule' := by decide
  simp only [caption, String.toList_append, List.append_assoc] at heq
  obtain ⟨hicon, hrest⟩ := List.append_inj heq
    ((hicons _ hrule).1.trans (hicons _ hrule').1.symm)
  exact ⟨(hicons _ hrule).2 _ hrule' hicon, String.toList_inj.1 (List.append_cancel_left hrest)⟩

/-! ## Leads -/

/-- The corner or the branch before a caption. -/
def connector (isLast : Bool) : String :=
  if isLast then "└─ " else "├─ "

/-- What a node adds to the lead of its children. -/
def trunk (isLast : Bool) : String :=
  if isLast then "  " else "│ "

theorem drawNodes_cons (lead : String) (o : Outline) (rest : List Outline) :
    drawNodes false lead (o :: rest) = lead ++ connector rest.isEmpty ++ o.caption ++ "\n" ++
      drawNodes false (lead ++ trunk rest.isEmpty) o.children ++ drawNodes false lead rest := by
  cases o
  simp [drawNodes, drawNode, lineNumber, connector, trunk, children]

theorem toList_drawNodes_cons (lead : String) (o : Outline) (rest : List Outline) (x : List Char) :
    (drawNodes false lead (o :: rest)).toList ++ x =
      lead.toList ++ ((connector rest.isEmpty).toList ++ (o.caption.toList ++ '\n' ::
        ((drawNodes false (lead ++ trunk rest.isEmpty) o.children).toList ++
          ((drawNodes false lead rest).toList ++ x)))) := by
  simp [drawNodes_cons]

theorem isLegible_connector : IsLegible fun isLast => (connector isLast).toList := by
  rintro (_ | _) (_ | _) x y h <;> simp_all [connector]

/-- A text that does not go on with a line under a lead. -/
def IsOutside (lead : String) (text : List Char) : Prop :=
  ∀ c more, c ∈ [' ', '│', '├', '└'] → text ≠ lead.toList ++ c :: more

theorem exists_connector_eq (isLast : Bool) :
    ∃ c ∈ ['├', '└'], (connector isLast).toList = [c, '─', ' '] := by
  cases isLast
  · exact ⟨'├', by decide, rfl⟩
  · exact ⟨'└', by decide, rfl⟩

theorem exists_trunk_eq (isLast : Bool) : ∃ c ∈ [' ', '│'], (trunk isLast).toList = [c, ' '] := by
  cases isLast
  · exact ⟨'│', by decide, rfl⟩
  · exact ⟨' ', by decide, rfl⟩

/-- The first of some brothers has a line under their lead. -/
theorem IsOutside.ne_drawNodes {lead : String} {text : List Char} (h : IsOutside lead text)
    (o : Outline) (rest : List Outline) (more : List Char) :
    text ≠ (drawNodes false lead (o :: rest)).toList ++ more := by
  obtain ⟨c, hc, hconnector⟩ := exists_connector_eq rest.isEmpty
  rw [toList_drawNodes_cons, hconnector]
  exact h c _ (List.mem_append_right [' ', '│'] hc)

/-- Neither the brothers of a node nor what comes after them goes on under the
    lead of its children. -/
theorem IsOutside.drawNodes {lead : String} {text : List Char} (h : IsOutside lead text)
    (isLast : Bool) (rest : List Outline) :
    IsOutside (lead ++ trunk isLast) ((Outline.drawNodes false lead rest).toList ++ text) := by
  intro c more hc heq
  obtain ⟨d, hd, htrunk⟩ := exists_trunk_eq isLast
  rw [String.toList_append, htrunk, List.append_assoc] at heq
  cases rest with
  | nil => exact h d (' ' :: c :: more) (List.mem_append_left ['├', '└'] hd) heq
  | cons o rest =>
    -- a line under the lead itself goes on with a connector
    obtain ⟨e, he, hconnector⟩ := exists_connector_eq rest.isEmpty
    rw [toList_drawNodes_cons, hconnector] at heq
    have hsame : e = d := (List.cons.inj (List.append_cancel_left heq)).1
    have hdistinct : ∀ e ∈ ['├', '└'], e ∉ [' ', '│'] := by simp
    exact hdistinct e he (hsame ▸ hd)

/-! ## Reading -/

/-- Brothers are read back from their drawing, and what comes after it begins where it ends. -/
theorem read_drawNodes (outlines : List Outline) :
    ∀ {others : List Outline} {lead : String} {x y : List Char}, (∀ o ∈ outlines, o.IsPlain) →
      (∀ o ∈ others, o.IsPlain) → IsOutside lead x → IsOutside lead y →
      (drawNodes false lead outlines).toList ++ x = (drawNodes false lead others).toList ++ y →
      List.Forall₂ Alike outlines others ∧ x = y := by
  induction outlines using Outline.induction with
  | nil =>
    intro others lead x y _ _ hx _ heq
    cases others with
    | nil => exact ⟨.nil, heq⟩
    | cons o rest => exact absurd heq (hx.ne_drawNodes o rest y)
  | cons o rest ihChildren ihRest =>
    intro others lead x y hplain hplain' hx hy heq
    cases others with
    | nil => exact absurd heq.symm (hy.ne_drawNodes o rest x)
    | cons o' rest' =>
      obtain ⟨ho, hrest⟩ := List.forall_mem_cons.1 hplain
      obtain ⟨ho', hrest'⟩ := List.forall_mem_cons.1 hplain'
      rw [toList_drawNodes_cons, toList_drawNodes_cons] at heq
      -- whether a node is the last of its brothers shows in its connector
      obtain ⟨hlast, heq⟩ := isLegible_connector (List.append_cancel_left heq)
      obtain ⟨hcaption, heq⟩ :=
        append_stop_inj ho.lineFeed_notMem_caption ho'.lineFeed_notMem_caption heq
      obtain ⟨hrule, hlabel⟩ := ho.caption_inj ho' hcaption
      rw [← hlast] at heq
      -- its children are drawn further in than the brothers that come after them
      obtain ⟨halike, heq⟩ := ihChildren ho.children ho'.children (hx.drawNodes _ rest)
        (hy.drawNodes _ rest') heq
      obtain ⟨hothers, hafter⟩ := ihRest hrest hrest' hx hy heq
      exact ⟨.cons (.mk hrule hlabel halike) hothers, hafter⟩

/-- Only the shape of outlines is drawn. -/
theorem drawNodes_congr (outlines : List Outline) : ∀ {others : List Outline} {lead : String},
    List.Forall₂ Alike outlines others →
      drawNodes false lead outlines = drawNodes false lead others := by
  induction outlines using Outline.induction with
  | nil =>
    rintro others lead (_ | _)
    rfl
  | cons o rest ihChildren ihRest =>
    rintro (_ | ⟨other, others⟩) lead (_ | ⟨⟨hrule, hlabel, hchildren⟩, hrest⟩)
    have hlast : rest.isEmpty = others.isEmpty := by cases hrest <;> rfl
    rw [drawNodes_cons, drawNodes_cons, hlast, ihChildren hchildren, ihRest hrest, caption, caption,
      hrule, hlabel]

/-- Outlines with the same drawing have the same shape. -/
theorem alike_of_drawing_eq {o other : Outline} (h : o.IsPlain) (hother : other.IsPlain)
    (heq : o.drawing false = other.drawing false) : Alike o other := by
  have hchars : o.caption.toList ++ '\n' :: ((drawNodes false "" o.children).toList ++ []) =
      other.caption.toList ++ '\n' :: ((drawNodes false "" other.children).toList ++ []) := by
    simpa [drawing] using congrArg String.toList heq
  obtain ⟨hcaption, hrest⟩ :=
    append_stop_inj h.lineFeed_notMem_caption hother.lineFeed_notMem_caption hchars
  obtain ⟨hrule, hlabel⟩ := h.caption_inj hother hcaption
  have hnil : IsOutside "" [] := fun c more _ => nofun
  exact .mk hrule hlabel (read_drawNodes _ h.children hother.children hnil hnil hrest).1

/-- Outlines are drawn the same just when they have the same shape. -/
theorem drawing_eq_iff {o other : Outline} (h : o.IsPlain) (hother : other.IsPlain) :
    o.drawing false = other.drawing false ↔ Alike o other := by
  refine ⟨alike_of_drawing_eq h hother, ?_⟩
  rintro ⟨hrule, hlabel, hchildren⟩
  rw [drawing, drawing, drawNodes_congr _ hchildren, caption, caption, hrule, hlabel]

/-! ## Lines -/

/-- A text of box characters, as there may be one before a caption. -/
def IsLead (text : String) : Prop :=
  ∀ c ∈ text.toList, c ∈ [' ', '│', '├', '└', '─']

theorem IsLead.append {lead more : String} (h : IsLead lead) (hmore : IsLead more) :
    IsLead (lead ++ more) := by
  intro c hc
  rw [String.toList_append] at hc
  exact (List.mem_append.1 hc).elim (h c) (hmore c)

theorem isLead_empty : IsLead "" := nofun

theorem isLead_connector (isLast : Bool) : IsLead (connector isLast) := by
  cases isLast <;> simp [IsLead, connector]

theorem isLead_trunk (isLast : Bool) : IsLead (trunk isLast) := by
  cases isLast <;> simp [IsLead, trunk]

/-- A line that shows a node: box characters, and its caption. -/
structure IsLineOf (line : String) (o : Outline) : Prop where
  caption : ∃ lead : String, line = lead ++ o.caption ∧ IsLead lead
  lineFeed : '\n' ∉ line.toList

theorem IsPlain.isLineOf {o : Outline} (h : o.IsPlain) {lead : String} (hlead : IsLead lead) :
    IsLineOf (lead ++ o.caption) o where
  caption := ⟨lead, rfl, hlead⟩
  lineFeed hmem := by
    rw [String.toList_append] at hmem
    rcases List.mem_append.1 hmem with hmem | hmem
    · exact absurd (hlead _ hmem) (by decide)
    · exact h.lineFeed_notMem_caption hmem

/-- Outlines are drawn line by line, a parent before its children. -/
theorem exists_lines (outlines : List Outline) : ∀ {lead : String}, (∀ o ∈ outlines, o.IsPlain) →
    IsLead lead → ∃ lines, drawNodes false lead outlines = String.join (lines.map (· ++ "\n")) ∧
      List.Forall₂ IsLineOf lines (preorders outlines) := by
  induction outlines using Outline.induction with
  | nil => exact fun _ _ => ⟨[], by rw [drawNodes]; rfl, by rw [preorders]; exact .nil⟩
  | cons o rest ihChildren ihRest =>
    intro lead hplain hlead
    obtain ⟨ho, hrest⟩ := List.forall_mem_cons.1 hplain
    obtain ⟨below, hbelow, hbelowLines⟩ := ihChildren ho.children
      (hlead.append (isLead_trunk rest.isEmpty))
    obtain ⟨after, hafter, hafterLines⟩ := ihRest hrest hlead
    refine ⟨(lead ++ connector rest.isEmpty ++ o.caption) :: (below ++ after), ?_, ?_⟩
    · rw [drawNodes_cons, hbelow, hafter, ← String.toList_inj]
      simp
    · rw [preorders, preorder_eq]
      exact .cons (ho.isLineOf (hlead.append (isLead_connector _)))
        (List.rel_append hbelowLines hafterLines)

/-- A drawing has one line a node, a parent before its children. -/
theorem exists_drawing_eq {o : Outline} (h : o.IsPlain) :
    ∃ lines, o.drawing false = String.join (lines.map (· ++ "\n")) ∧
      List.Forall₂ IsLineOf lines o.preorder := by
  obtain ⟨lines, hlines, hnodes⟩ := exists_lines o.children h.children isLead_empty
  refine ⟨o.caption :: lines, ?_, ?_⟩
  · rw [drawing, hlines, ← String.toList_inj]
    simp
  · rw [preorder_eq]
    exact .cons (by simpa using h.isLineOf isLead_empty) hnodes

end Outline

end Wireframe
