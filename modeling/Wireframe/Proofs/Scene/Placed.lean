import Mathlib.Data.List.Flatten
import Wireframe.Proofs.Scene.Sheet

/-!
# Where passages stand

The printer puts the comments above a node before its passage. In a scene that was read, a node
begins where the first word of its passage does (`Passage.IsPlaced`), as tokens are in order. The
words of all passages, one after the other, are those of the text (`Scene.Reads.flatMap_eq`).
-/

namespace Wireframe

/-! ## The start of a node -/

namespace Range

/-- The hull of ranges begins with the first one, if no other begins before it. -/
theorem foldl_hull {r : Range} {rest : List Range} (h : ∀ s ∈ rest, r.span.start ≤ s.span.start) :
    (rest.foldl hull r).start = r.start := by
  induction rest generalizing r with
  | nil => rfl
  | cons s rest ih =>
    obtain ⟨hs, hrest⟩ := List.forall_mem_cons.1 h
    have hstart : (r.hull s).span.start = r.span.start ∧ (r.hull s).start = r.start := by
      rw [hull, if_neg (Nat.not_lt.2 hs)]
      exact ⟨rfl, rfl⟩
    rw [List.foldl_cons, ih (hstart.1 ▸ hrest), hstart.2]

end Range

/-- A node begins with the first of its tokens. -/
theorem Node.start_range {n : Node} {t : Token} {more : List Token} (h : n.leaves.Perm (t :: more))
    (horder : InOrder (t :: more)) : n.range.start = t.range.start := by
  have htokens : n.tokens = t :: more := horder.sortByOffset_eq h
  rw [range, htokens]
  refine Range.foldl_hull (List.forall_mem_map.2 fun u hu => ?_)
  exact Nat.le_of_lt ((List.pairwise_cons.1 horder).1 u hu)

namespace Passage

/-- The words of a passage. -/
def words (p : Passage) : List Token :=
  p.rows.flatMap fun r => r.row.words

/-- A passage is placed on the line of its first word, or nowhere. -/
def IsPlaced (p : Passage) : Prop :=
  p.line = (p.words.head?.map Token.line).getD 0

theorem isPlaced_blank : blank.IsPlaced := rfl

/-- The words of a row with words are the first of its tokens. -/
theorem exists_head {r : Row} (h : ∀ e, r ≠ .blank e) : ∃ t words leaves,
    r.words = t :: words ∧ r.leaves = t :: leaves := by
  cases r with
  | blank e => exact absurd rfl (h e)
  | page d k t e => cases d <;> exact ⟨_, _, _, rfl, rfl⟩
  | alignment a => exact ⟨_, _, _, rfl, rfl⟩
  | block k t e => exact ⟨_, _, _, rfl, rfl⟩
  | direction d =>
    obtain ⟨_ | c, k, axis, e⟩ := d <;> exact ⟨_, _, _, rfl, rfl⟩
  | list k t b c e => cases b <;> exact ⟨_, _, _, rfl, rfl⟩
  | item i =>
    obtain ⟨⟨kind, k, v⟩ | l, e⟩ := i <;> exact ⟨_, _, _, rfl, rfl⟩

/-- A node that begins with the row that its passage shows is placed. -/
theorem isPlaced_ofNode {n : Node} {level : Nat} {laid : List LaidRow} {r : Row} {rows : List Row}
    (hne : ∀ e, r ≠ .blank e) (hlaid : (laid.flatMap fun r => r.row.words) = r.words)
    (hleaves : n.leaves.Perm (Row.tokens (r :: rows))) (horder : InOrder (Row.tokens (r :: rows))) :
    (ofNode level n laid).IsPlaced := by
  obtain ⟨t, words, leaves, hwords, hrow⟩ := exists_head hne
  rw [Row.tokens_cons, hrow, List.cons_append] at hleaves horder
  have hline : (ofNode level n laid).line = t.line :=
    congrArg Position.line (Node.start_range hleaves horder)
  have hwords : (ofNode level n laid).words = t :: words := hlaid.trans hwords
  rw [IsPlaced, hline, hwords]
  rfl

/-- A node whose passage is one row. -/
theorem isPlaced_row {n : Node} {level : Nat} {r : Row} {rows : List Row} (hne : ∀ e, r ≠ .blank e)
    (hleaves : n.leaves.Perm (Row.tokens (r :: rows))) (horder : InOrder (Row.tokens (r :: rows))) :
    (ofNode level n [⟨level, r⟩]).IsPlaced :=
  isPlaced_ofNode hne (List.append_nil _) hleaves horder

end Passage

/-! ## Members and their rows -/

section Members

variable {α β : Type} {P F : α → List Row → Prop} {rows : List Row}

/-- Each member has its rows among those of all. -/
theorem RowsOf.exists_sublist {xs : List α} (h : RowsOf P F xs rows) :
    ∀ x ∈ xs, ∃ r, P x r ∧ r.Sublist rows := by
  induction h with
  | nil => exact fun _ h => absurd h List.not_mem_nil
  | cons hx _ _ ih =>
    refine List.forall_mem_cons.2 ⟨⟨_, hx, List.sublist_append_left _ _⟩, fun x hx => ?_⟩
    obtain ⟨r, hr, hsub⟩ := ih x hx
    exact ⟨r, hr, hsub.trans (List.sublist_append_right _ _)⟩

theorem RowsOfLines.exists_sublist {members : List α} {blanks : List Token}
    (h : RowsOfLines P F members blanks rows) : ∀ x ∈ members, ∃ r, P x r ∧ r.Sublist rows := by
  obtain ⟨lines, rfl, -, h⟩ := h
  intro x hx
  obtain ⟨line, hline, hcontent⟩ := List.mem_filterMap.1 hx
  obtain ⟨r, hr, hsub⟩ := h.exists_sublist line hline
  cases line with
  | blank t => cases hcontent
  | content y => exact ⟨r, Option.some.inj hcontent ▸ hr, hsub⟩

/-- What is made of the rows of members is made of the members. -/
theorem RowsOf.flatMap_eq {f : Row → List β} {g : α → List β}
    (hP : ∀ x r, P x r → r.flatMap f = g x)
    {xs : List α} (h : RowsOf P F xs rows) : rows.flatMap f = xs.flatMap g := by
  induction h with
  | nil => rfl
  | cons hx _ _ ih => rw [List.flatMap_append, List.flatMap_cons, hP _ _ hx, ih]

theorem RowsOfLines.flatMap_eq {f : Row → List β} {g : α → List β} (hblank : ∀ t, f (.blank t) = [])
    (hP : ∀ x r, P x r → r.flatMap f = g x) {members : List α} {blanks : List Token}
    (h : RowsOfLines P F members blanks rows) : rows.flatMap f = members.flatMap g := by
  refine h.induction (motive := fun members _ rows => rows.flatMap f = members.flatMap g) rfl ?_ ?_
  · intro t _ _ rows _ ih
    rw [List.flatMap_cons, hblank, ih]
    rfl
  · intro x r _ _ rows hx _ _ ih
    rw [List.flatMap_append, List.flatMap_cons, hP x r hx, ih]

/-- What is made of the rows of lines, if nothing is made of blank ones. -/
theorem Line.flatMap_laid {f : Row → List β} (hblank : ∀ t, f (.blank t) = [])
    {g : α → List LaidRow}
    (lines : List (Line α)) : (rowsOf (lines.flatMap (Line.laid g))).flatMap f =
      (lines.filterMap Line.content?).flatMap fun x => (rowsOf (g x)).flatMap f := by
  induction lines with
  | nil => rfl
  | cons line lines ih =>
    rw [List.flatMap_cons, rowsOf_append, List.flatMap_append, ih]
    cases line with
    | blank t => rw [Line.laid, rowsOf_cons, List.flatMap_cons, hblank]; rfl
    | content x => rfl

end Members

/-! ## The words of a layout -/

section Words

variable {β : Type} {f : Row → List β} (hf : ∀ t, f (.blank t) = [])
  {greedy : Prop} {rows : List Row}

include hf

theorem ElementGroup.Reads.flatMap_eq {g : ElementGroup} (h : g.Reads greedy rows) (level : Nat) :
    rows.flatMap f = (rowsOf (g.laid level)).flatMap f := by
  obtain ⟨rest, h, rfl⟩ := h
  rw [laid, rowsOf_append, rowsOf_map, List.flatMap_append, List.flatMap_append,
    Line.flatMap_laid hf, g.content?_lines,
    h.flatMap_eq hf fun e r he => by rw [he, ← e.rowsOf_laid level]]

theorem Block.Reads.flatMap_eq {b : Block} (h : b.Reads greedy rows) :
    rows.flatMap f = (rowsOf b.laid).flatMap f := by
  obtain ⟨rest, h, rfl⟩ := h
  rw [laid, rowsOf_cons, rowsOf_flatMap, List.flatMap_cons, List.flatMap_cons, List.flatMap_assoc,
    RowsOf.flatMap_eq (fun g r hg => hg.1.flatMap_eq hf 1) h]

theorem BlockGroup.Reads.flatMap_eq {g : BlockGroup} (h : g.Reads greedy rows) :
    rows.flatMap f = (rowsOf g.laid).flatMap f := by
  obtain ⟨rest, h, rfl⟩ := h
  rw [laid, rowsOf_append, rowsOf_map, List.flatMap_append, List.flatMap_append,
    Line.flatMap_laid hf, g.content?_lines, h.flatMap_eq hf fun b r hb => hb.flatMap_eq hf]

theorem Page.Reads.flatMap_eq {p : Page} (h : p.Reads greedy rows) :
    rows.flatMap f = (rowsOf p.laid).flatMap f := by
  obtain ⟨rest, h, rfl⟩ := h
  rw [laid, rowsOf_cons, rowsOf_flatMap, List.flatMap_cons, List.flatMap_cons, List.flatMap_assoc,
    RowsOf.flatMap_eq (fun g r hg => hg.1.flatMap_eq hf) h]

/-- A layout has the rows of its scene, but for blank lines, in their order. -/
theorem Scene.Reads.flatMap_eq {s : Scene} (h : s.Reads greedy rows) :
    rows.flatMap f = (rowsOf s.laid).flatMap f := by
  rw [laid, rowsOf_flatMap, List.flatMap_assoc]
  exact RowsOfLines.flatMap_eq hf (fun _ _ hp => hp.flatMap_eq hf) h

end Words

/-! ## The passages of a scene that was read -/

section Placed

variable {greedy : Prop} {rows rows' : List Row}

theorem InOrder.tokens_sublist (h : InOrder (Row.tokens rows)) (hsub : rows'.Sublist rows) :
    InOrder (Row.tokens rows') :=
  h.sublist (hsub.flatMap _)

theorem Item.isPlaced_passage {i : Item} (h : InOrder i.leaves) (level : Nat) (afterList : Bool) :
    (i.passage level afterList).IsPlaced := by
  have hleaves : i.leaves = Row.tokens [.item i] := (List.append_nil _).symm
  refine Passage.isPlaced_ofNode (r := .item i) nofun ?_ (.of_eq hleaves) (hleaves ▸ h)
  cases afterList <;> exact List.append_nil _

theorem ItemList.isPlaced_passages {l : ItemList} (h : InOrder (Row.tokens l.rows)) (level : Nat) :
    ∀ p ∈ l.passages level, p.IsPlaced := by
  have hleaves : l.leaves = Row.tokens l.rows := Element.leaves_eq_tokens (.list l)
  refine List.forall_mem_cons.2 ⟨Passage.isPlaced_row nofun (.of_eq hleaves) h,
    List.forall_mem_map.2 fun i hi => ?_⟩
  refine Item.isPlaced_passage (h.sublist ?_) _ _
  rw [← hleaves]
  exact (List.sublist_flatten_of_mem (List.mem_map_of_mem hi)).trans (List.sublist_append_right _ _)

theorem ElementGroup.isPlaced_passagesOf {entries : List Element}
    (h : ∀ e ∈ entries, InOrder (Row.tokens e.rows)) (level : Nat) (afterList : Bool) :
    ∀ p ∈ passagesOf level afterList entries, p.IsPlaced := by
  induction entries generalizing afterList with
  | nil => exact fun _ h => absurd h List.not_mem_nil
  | cons e entries ih =>
    obtain ⟨he, hentries⟩ := List.forall_mem_cons.1 h
    cases e with
    | item i =>
      have hleaves : i.leaves = Row.tokens [.item i] := Element.leaves_eq_tokens (.item i)
      exact List.forall_mem_cons.2 ⟨i.isPlaced_passage (hleaves ▸ he) level afterList,
        ih hentries false⟩
    | list l => exact List.forall_mem_append.2 ⟨l.isPlaced_passages he level, ih hentries true⟩

theorem ElementGroup.Reads.isPlaced {g : ElementGroup} (h : g.Reads greedy rows)
    (horder : InOrder (Row.tokens rows)) (level : Nat) : ∀ p ∈ g.passages level, p.IsPlaced := by
  obtain ⟨rest, h, rfl⟩ := h
  rw [passages]
  split
  · exact List.forall_mem_singleton.2 Passage.isPlaced_blank
  refine List.forall_mem_append.2 ⟨List.forall_mem_map.2 fun d hd => ?_,
    isPlaced_passagesOf ?_ level false⟩
  · have hsub : [Row.direction d].Sublist (g.direction.toList.map Row.direction ++ rest) :=
      List.singleton_sublist.2 (List.mem_append_left _ (List.mem_map_of_mem hd))
    exact Passage.isPlaced_row nofun (.of_eq (List.append_nil _).symm) (horder.tokens_sublist hsub)
  · intro e he
    obtain ⟨_, rfl, hsub⟩ := h.exists_sublist e he
    exact horder.tokens_sublist (hsub.trans (List.sublist_append_right _ _))

theorem Block.Reads.isPlaced {b : Block} (h : b.Reads greedy rows)
    (horder : InOrder (Row.tokens rows)) : ∀ p ∈ b.passages, p.IsPlaced := by
  have hleaves := h.leaves_perm
  obtain ⟨rest, h, rfl⟩ := h
  refine List.forall_mem_cons.2 ⟨Passage.isPlaced_row nofun hleaves horder,
    List.forall_mem_flatMap.2 fun g hg => ?_⟩
  obtain ⟨r, hr, hsub⟩ := RowsOf.exists_sublist h g hg
  exact hr.1.isPlaced (horder.tokens_sublist (hsub.cons _)) 1

theorem BlockGroup.Reads.isPlaced {g : BlockGroup} (h : g.Reads greedy rows)
    (horder : InOrder (Row.tokens rows)) : ∀ p ∈ g.passages, p.IsPlaced := by
  obtain ⟨rest, h, rfl⟩ := h
  rw [passages]
  split
  · exact List.forall_mem_singleton.2 Passage.isPlaced_blank
  refine List.forall_mem_append.2 ⟨List.forall_mem_map.2 fun a ha => ?_,
    List.forall_mem_flatMap.2 fun b hb => ?_⟩
  · have hsub : [Row.alignment a].Sublist (g.alignment.toList.map Row.alignment ++ rest) :=
      List.singleton_sublist.2 (List.mem_append_left _ (List.mem_map_of_mem ha))
    exact Passage.isPlaced_row nofun (a.leaves_perm_written.trans (.of_eq (List.append_nil _).symm))
      (horder.tokens_sublist hsub)
  · obtain ⟨r, hr, hsub⟩ := h.exists_sublist b hb
    exact hr.isPlaced (horder.tokens_sublist (hsub.trans (List.sublist_append_right _ _)))

theorem Page.Reads.isPlaced {p : Page} (h : p.Reads greedy rows)
    (horder : InOrder (Row.tokens rows)) : ∀ x ∈ p.passages, x.IsPlaced := by
  have hleaves := h.leaves_perm
  obtain ⟨rest, h, rfl⟩ := h
  refine List.forall_mem_cons.2 ⟨Passage.isPlaced_row nofun hleaves horder,
    List.forall_mem_flatMap.2 fun g hg => ?_⟩
  obtain ⟨r, hr, hsub⟩ := RowsOf.exists_sublist h g hg
  exact hr.1.isPlaced (horder.tokens_sublist (hsub.cons _))

theorem Scene.Reads.headRow_mem {s : Scene} {p : Page} (h : s.Reads greedy rows)
    (hp : p ∈ s.pages) : p.headRow ∈ rows := by
  obtain ⟨r, ⟨rest, -, rfl⟩, hsub⟩ := RowsOfLines.exists_sublist h p hp
  exact hsub.subset List.mem_cons_self

/-- The passages of a scene are placed if its tokens are in order. -/
theorem Scene.Reads.isPlaced_passages {s : Scene} (h : s.Reads greedy rows)
    (horder : InOrder (Row.tokens rows)) : ∀ p ∈ s.passages, p.IsPlaced := by
  refine List.forall_mem_flatMap.2 fun p hp => ?_
  obtain ⟨r, hr, hsub⟩ := RowsOfLines.exists_sublist h p hp
  exact hr.isPlaced (horder.tokens_sublist hsub)

end Placed

end Wireframe
