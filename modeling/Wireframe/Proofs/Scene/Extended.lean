import Wireframe.Proofs.Row

/-!
# A scene with one more alignment

An alignment after the last row of a scene begins a group of its own on the last page. The scene
with this group is the greedy grouping of the rows with the alignment (`Scene.reads_align_iff`).
-/

namespace Wireframe

section Concat

variable {α : Type} {P F : α → List Row → Prop} {xs : List α} {x : α} {rows : List Row}

/-- The rows of some members and a last one. -/
theorem RowsOf.concat_iff : RowsOf P F (xs ++ [x]) rows ↔ ∃ front back, rows = front ++ back ∧
    P x back ∧ F x [] ∧ RowsOf P (fun y after => F y (after ++ back)) xs front := by
  constructor
  · intro h
    induction xs generalizing rows with
    | nil =>
      cases h with
      | cons hx hf hrest =>
        cases hrest
        exact ⟨[], _, List.append_nil _, hx, hf, .nil⟩
    | cons y xs ih =>
      cases h with
      | cons hy hf hrest =>
        obtain ⟨front, back, rfl, hx, hlast, hxs⟩ := ih hrest
        exact ⟨_, back, (List.append_assoc ..).symm, hx, hlast, .cons hy hf hxs⟩
  · rintro ⟨front, back, rfl, hx, hlast, h⟩
    induction h with
    | nil =>
      have := RowsOf.cons hx hlast RowsOf.nil
      rwa [List.append_nil] at this
    | cons hy hf _ ih =>
      rw [List.append_assoc]
      exact .cons hy hf ih

end Concat

/-- A page with an alignment at its end. -/
def Page.align (p : Page) (a : Alignment) : Page :=
  { p with groups := p.groups ++ [⟨some a, [], []⟩] }

/-- What may follow a member before rows that may follow it alone. -/
theorem follows_append_iff {rows back : List Row} {p : Row → Bool} (hback : ∀ r ∈ back.head?, p r) :
    (True → ∀ r ∈ (rows ++ back).head?, p r) ↔ (True → ∀ r ∈ rows.head?, p r) := by
  cases rows with
  | nil => exact iff_of_true (fun _ => hback) fun _ _ h => nomatch h
  | cons => exact Iff.rfl

section Greedy

variable {rows : List Row} {a : Alignment}

/-- The rows of a group that has nothing but an alignment. -/
theorem BlockGroup.reads_alignment_iff :
    (⟨some a, [], []⟩ : BlockGroup).Reads True rows ↔ rows = [.alignment a] := by
  constructor
  · rintro ⟨rest, h, rfl⟩
    rw [((h.eq_nil_iff fun _ _ hb => hb.ne_nil).2 ⟨rfl, rfl⟩)]
    rfl
  · rintro rfl
    exact ⟨[], .nil, rfl⟩

theorem Page.readsGroups_concat_iff {groups : List BlockGroup} :
    Page.ReadsGroups True (groups ++ [⟨some a, [], []⟩]) rows ↔
      ∃ front, rows = front ++ [.alignment a] ∧ Page.ReadsGroups True groups front := by
  have hhead : ∀ r ∈ [Row.alignment a].head?, r.isAlignment := by simp [Row.isAlignment]
  rw [Page.ReadsGroups, RowsOf.concat_iff]
  simp only [BlockGroup.reads_alignment_iff]
  constructor
  · rintro ⟨front, back, rfl, ⟨rfl, -⟩, -, h⟩
    exact ⟨front, rfl, h.mono (fun _ _ h => h) fun _ _ h => (follows_append_iff hhead).1 h⟩
  · rintro ⟨front, rfl, h⟩
    exact ⟨front, _, rfl, ⟨rfl, List.cons_ne_nil _ _⟩, fun _ _ => nofun,
      h.mono (fun _ _ h => h) fun _ _ h => (follows_append_iff hhead).2 h⟩

theorem Page.reads_align_iff {p : Page} :
    (p.align a).Reads True rows ↔ ∃ front, rows = front ++ [.alignment a] ∧ p.Reads True front := by
  constructor
  · rintro ⟨rest, h, rfl⟩
    obtain ⟨front, rfl, hgroups⟩ := Page.readsGroups_concat_iff.1 h
    exact ⟨p.headRow :: front, rfl, front, hgroups, rfl⟩
  · rintro ⟨_, rfl, front, h, rfl⟩
    exact ⟨front ++ [.alignment a], Page.readsGroups_concat_iff.2 ⟨front, rfl, h⟩, rfl⟩

/-- After the last page there are no blank lines: they are in it. -/
theorem exists_lines_concat {lines : List (Line Page)} {pages : List Page} {p : Page}
    (h : RowsOf (Line.Reads (Page.Reads True))
      (Line.Allows fun _ rows => True → ∀ r ∈ rows.head?, r.isPage) lines rows)
    (hpages : lines.filterMap Line.content? = pages ++ [p]) :
    ∃ front, lines = front ++ [.content p] ∧ front.filterMap Line.content? = pages := by
  induction h generalizing pages with
  | nil => exact absurd hpages.symm (by simp)
  | @cons line r lines rows hx hf hlines ih =>
    cases line with
    | blank t =>
      obtain ⟨front, rfl, hfront⟩ := ih hpages
      exact ⟨.blank t :: front, rfl, hfront⟩
    | content x =>
      replace hpages : x :: lines.filterMap Line.content? = pages ++ [p] := hpages
      cases pages with
      | cons y pages =>
        obtain ⟨rfl, hmore⟩ := List.cons.inj hpages
        obtain ⟨front, rfl, hfront⟩ := ih hmore
        exact ⟨.content x :: front, rfl, congrArg (x :: ·) hfront⟩
      | nil =>
        obtain ⟨rfl, hnone⟩ := List.cons.inj hpages
        cases hlines with
        | nil => exact ⟨[], rfl, rfl⟩
        | @cons line r _ _ hline =>
          cases line with
          | content y => cases hnone
          | blank t =>
            -- a page takes the blank lines after it, so none is left to follow the last one
            rw [show r = [.blank t] from hline] at hf
            exact Bool.noConfusion (hf trivial (.blank t) rfl)

/-- The rows of the last page come last. -/
theorem Scene.reads_concat_iff {pages : List Page} {p : Page} {lineEnds : List Token}
    {comments : List Comment} :
    (⟨pages ++ [p], lineEnds, comments⟩ : Scene).Reads True rows ↔ ∃ front back,
      rows = front ++ back ∧ p.Reads True back ∧
      (⟨pages, lineEnds, comments⟩ : Scene).Reads True front := by
  -- what a line allows after it is decided by the next row, and the last page begins with its own
  have hallows {back : List Row} (hback : p.Reads True back) (line : Line Page) (after : List Row) :
      line.Allows (fun _ rows => True → ∀ r ∈ rows.head?, r.isPage) (after ++ back) ↔
        line.Allows (fun _ rows => True → ∀ r ∈ rows.head?, r.isPage) after := by
    obtain ⟨rest, -, rfl⟩ := hback
    cases line with
    | blank => exact Iff.rfl
    | content => exact follows_append_iff (by simp [Page.headRow, Row.isPage])
  constructor
  · rintro ⟨lines, hpages, rfl, h⟩
    obtain ⟨lines, rfl, rfl⟩ := exists_lines_concat h hpages
    obtain ⟨front, back, rfl, hback, -, h⟩ := RowsOf.concat_iff.1 h
    refine ⟨front, back, rfl, hback, lines, rfl, by simp [Line.blank?], ?_⟩
    exact h.mono (fun _ _ h => h) fun line after h => (hallows hback line after).1 h
  · rintro ⟨front, back, rfl, hback, lines, rfl, rfl, h⟩
    refine ⟨lines ++ [.content p], by simp [Line.content?], by simp [Line.blank?], ?_⟩
    exact RowsOf.concat_iff.2 ⟨front, back, rfl, hback, fun _ _ => nofun,
      h.mono (fun _ _ h => h) fun line after h => (hallows hback line after).2 h⟩

/-- A scene with an alignment at the end of its last page groups the rows of the scene and the
    alignment. -/
theorem Scene.reads_align_iff {pages : List Page} {p : Page} {lineEnds : List Token}
    {comments : List Comment} :
    (⟨pages ++ [p.align a], lineEnds, comments⟩ : Scene).Reads True rows ↔
      ∃ front, rows = front ++ [.alignment a] ∧
        (⟨pages ++ [p], lineEnds, comments⟩ : Scene).Reads True front := by
  simp only [Scene.reads_concat_iff, Page.reads_align_iff]
  constructor
  · rintro ⟨front, _, rfl, ⟨back, rfl, hback⟩, h⟩
    exact ⟨front ++ back, (List.append_assoc ..).symm, front, back, rfl, hback, h⟩
  · rintro ⟨_, rfl, front, back, rfl, hback, h⟩
    exact ⟨front, _, List.append_assoc .., ⟨back, rfl, hback⟩, h⟩

end Greedy

end Wireframe
