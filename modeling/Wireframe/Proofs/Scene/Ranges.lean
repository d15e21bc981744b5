import Wireframe.Proofs.Grammar.Acceptance
import Wireframe.Proofs.Scene.Visited
import Wireframe.Proofs.Token.Located

/-!
# The ranges of nodes

The range of a node is the hull of its tokens, and the ranges of a tree nest: that of a child lies
within that of its parent, and the children of a node come one after the other without an overlap
(`Node.IsRanged`). This holds in the tree of every parse, however many errors there were on the way
(`Parsing.isRanged_scene`). Comments are children of the scene and lie within it, but may stand
anywhere.

A node keeps its tokens field by field, not in the order of the source: the commas of an alignment
come after its names, the blank lines of a group after its members. But each node is made of a
stretch of what was read, in order, and its children of stretches of that one after the other
(`Node.Spans`). The rows that a tree groups tell which (`Scene.Reads.members`).
-/

namespace Wireframe

/-! ## Members and their stretches -/

namespace Members

variable {α β : Type} {K : β → List Token → Prop} {f : α → β} {xs ys : List β}
  {used more : List Token}

theorem append (h : Members K xs used) (hmore : Members K ys more) :
    Members K (xs ++ ys) (used ++ more) := by
  induction h with
  | nil => exact hmore
  | cons hx _ ih =>
    rw [List.append_assoc]
    exact .cons hx ih

theorem singleton {y : β} (h : K y used) : Members K [y] used := by
  have hy := cons h nil
  rwa [List.append_nil] at hy

/-- Members that are made of certain tokens. -/
theorem map {g : α → List Token} {as : List α} (h : ∀ a ∈ as, K (f a) (g a)) :
    Members K (as.map f) (as.flatMap g) := by
  induction as with
  | nil => exact .nil
  | cons a as ih =>
    exact .cons (h a List.mem_cons_self) (ih fun b hb => h b (List.mem_cons_of_mem _ hb))

/-- Members that are made of one token each. -/
theorem map_token {token : α → Token} (h : ∀ a, K (f a) [token a]) (as : List α) :
    Members K (as.map f) (as.map token) := by
  induction as with
  | nil => exact .nil
  | cons a as ih => exact .cons (h a) ih

/-- Members that are made of the tokens of their rows. -/
theorem map_rowsOf {P F : α → List Row → Prop} {as : List α} {rows : List Row}
    (h : RowsOf P F as rows) (hK : ∀ a r, P a r → K (f a) (Row.tokens r)) :
    Members K (as.map f) (Row.tokens rows) := by
  induction h with
  | nil => exact .nil
  | cons hx _ _ ih =>
    rw [Row.tokens_append]
    exact .cons (hK _ _ hx) ih

/-- Members with blank lines between them. -/
theorem exists_map_rowsOfLines {P F : α → List Row → Prop} {as : List α} {blanks : List Token}
    {rows : List Row} (h : RowsOfLines P F as blanks rows)
    (hK : ∀ a r, P a r → K (f a) (Row.tokens r)) :
    ∃ v, Members K (as.map f) v ∧ v.Sublist (Row.tokens rows) := by
  refine h.induction (motive := fun as _ rows =>
    ∃ v, Members K (as.map f) v ∧ v.Sublist (Row.tokens rows)) ⟨[], .nil, .slnil⟩ ?_ ?_
  · rintro t as blanks rows - ⟨v, hv, hsub⟩
    exact ⟨v, hv, hsub.cons _⟩
  · rintro a r as blanks rows ha - - ⟨v, hv, hsub⟩
    rw [Row.tokens_append]
    exact ⟨Row.tokens r ++ v, .cons (hK a r ha) hv, hsub.append_left _⟩

theorem exists_of_mem (h : Members K xs used) {x : β} (hx : x ∈ xs) :
    ∃ part, K x part ∧ part.Sublist used := by
  induction h with
  | nil => exact absurd hx List.not_mem_nil
  | cons hy _ ih =>
    rcases List.mem_cons.1 hx with rfl | hx
    · exact ⟨_, hy, List.sublist_append_left _ _⟩
    · obtain ⟨part, hpart, hsub⟩ := ih hx
      exact ⟨part, hpart, hsub.trans (List.sublist_append_right _ _)⟩

/-- How tokens stand to those after them tells how members stand to those after them. -/
theorem pairwise {R : Token → Token → Prop} {S : β → β → Prop} (h : Members K xs used)
    (hused : used.Pairwise R)
    (hS : ∀ x y part later, K x part → K y later → (∀ t ∈ part, ∀ u ∈ later, R t u) → S x y) :
    xs.Pairwise S := by
  induction h with
  | nil => exact .nil
  | cons hx hxs ih =>
    obtain ⟨-, hrest, hacross⟩ := List.pairwise_append.1 hused
    refine List.pairwise_cons.2 ⟨fun y hy => ?_, ih hrest⟩
    obtain ⟨later, hlater, hsub⟩ := hxs.exists_of_mem hy
    exact hS _ y _ later hx hlater fun t ht u hu => hacross t ht u (hsub.subset hu)

end Members

/-- Separated tokens are still there. -/
theorem sublist_separated (tokens separators : List Token) :
    tokens.Sublist (separated tokens separators) := by
  induction tokens generalizing separators with
  | nil => exact List.nil_sublist _
  | cons t tokens ih =>
    cases separators with
    | nil => exact .refl _
    | cons s separators => exact ((ih separators).cons _).cons_cons _

/-! ## Nodes and their stretches -/

/-- A node is made of a stretch of tokens: it has all of them and at least one, and its children are
    made of stretches within it, one after the other. -/
inductive Node.Spans : Node → List Token → Prop
  | mk {n : Node} {stretch inner : List Token} : n.leaves.Perm stretch → stretch ≠ [] →
    Members Node.Spans n.children inner → inner.Sublist stretch → Node.Spans n stretch

theorem Value.spans (v : Value) : Node.Spans (.value v) [v.token] :=
  .mk (.refl _) (List.cons_ne_nil _ _) .nil (List.nil_sublist _)

theorem Literal.spans (l : Literal) : Node.Spans (.literal l) [l.token] :=
  .mk (.refl _) (List.cons_ne_nil _ _) .nil (List.nil_sublist _)

theorem Count.spans (c : Count) : Node.Spans (.number c) [c.token] :=
  .mk (.refl _) (List.cons_ne_nil _ _) .nil (List.nil_sublist _)

theorem Direction.spans (d : Direction) : Node.Spans (.direction d) d.leaves :=
  .mk (.refl _) (by simp [leaves]) (.map_token Count.spans _) (List.sublist_append_left _ _)

theorem Item.spans (i : Item) : Node.Spans (.item i) i.leaves := by
  have hinner : ∃ inner, Members Node.Spans (Node.contentChildren i.content) inner ∧
      inner.Sublist (contentLeaves i.content) := by
    rcases i.content with ⟨_, keyword, _ | v⟩ | l
    · exact ⟨[], .nil, List.nil_sublist _⟩
    · exact ⟨[v.token], .singleton v.spans, List.sublist_cons_self _ _⟩
    · exact ⟨[l.token], .singleton l.spans, .refl _⟩
  obtain ⟨inner, hmembers, hsub⟩ := hinner
  exact .mk (.refl _) (by simp [leaves]) hmembers (hsub.trans (List.sublist_append_left _ _))

theorem ItemList.spans (l : ItemList) : Node.Spans (.list l) l.leaves := by
  refine .mk (.refl _) (by simp [leaves])
    (.append (.map_token Value.spans _) (.map fun i _ => i.spans)) ?_
  rw [leaves, List.append_assoc, List.append_assoc]
  exact (List.sublist_cons_self _ _).append
    ((List.sublist_append_right _ _).trans (List.sublist_append_right _ _))

theorem Element.spans (e : Element) : Node.Spans e.node e.leaves := by
  cases e with
  | item i => exact i.spans
  | list l => exact l.spans

section Reads

variable {greedy : Prop} {rows : List Row}

theorem ElementGroup.Reads.spans {g : ElementGroup} (h : g.Reads greedy rows) (hrows : rows ≠ []) :
    Node.Spans (.elements g) (Row.tokens rows) := by
  have hperm := h.leaves_perm
  obtain ⟨rest, hrest, rfl⟩ := h
  obtain ⟨inner, hmembers, hsub⟩ := Members.exists_map_rowsOfLines hrest fun e r he =>
    (he ▸ e.leaves_eq_tokens) ▸ e.spans
  refine .mk hperm (mt Row.tokens_eq_nil_iff.1 hrows)
    (.append (.map fun d _ => d.spans) hmembers) ?_
  rw [Row.tokens_append, Row.tokens, List.flatMap_map]
  exact hsub.append_left _

theorem Block.Reads.spans {b : Block} (h : b.Reads greedy rows) :
    Node.Spans (.block b) (Row.tokens rows) := by
  have hperm := h.leaves_perm
  have hne := mt Row.tokens_eq_nil_iff.1 h.ne_nil
  obtain ⟨rest, hrest, rfl⟩ := h
  refine .mk hperm hne
    (.append (.map_token Value.spans _) (.map_rowsOf hrest fun g r hg => hg.1.spans hg.2)) ?_
  rw [Row.tokens_cons, headRow, Row.leaves]
  exact ((List.sublist_append_left _ _).cons _).append_right _

theorem Alignment.spans (a : Alignment) : Node.Spans (.alignment a) a.written := by
  refine .mk a.leaves_perm_written (by simp [written])
    (.append (.map_token Literal.spans _) (.singleton a.direction.spans)) ?_
  exact (((sublist_separated _ _).cons _).append (List.sublist_cons_self _ _))

theorem BlockGroup.Reads.spans {g : BlockGroup} (h : g.Reads greedy rows) (hrows : rows ≠ []) :
    Node.Spans (.blocks g) (Row.tokens rows) := by
  have hperm := h.leaves_perm
  obtain ⟨rest, hrest, rfl⟩ := h
  obtain ⟨inner, hmembers, hsub⟩ := Members.exists_map_rowsOfLines hrest fun b r hb => hb.spans
  refine .mk hperm (mt Row.tokens_eq_nil_iff.1 hrows)
    (.append (.map fun a _ => a.spans) hmembers) ?_
  rw [Row.tokens_append, Row.tokens, List.flatMap_map]
  exact hsub.append_left _

theorem Page.Reads.spans {p : Page} (h : p.Reads greedy rows) :
    Node.Spans (.page p) (Row.tokens rows) := by
  have hperm := h.leaves_perm
  obtain ⟨rest, hrest, rfl⟩ := h
  refine .mk hperm (by simp [headRow, Row.leaves])
    (.cons p.title.spans (.map_rowsOf hrest fun g r hg => hg.1.spans hg.2)) ?_
  rw [Row.tokens_cons, headRow, Row.leaves]
  exact List.Sublist.append_right (by simp) _

/-- The pages of a scene are made of stretches of its rows, one after the other. -/
theorem Scene.Reads.members {s : Scene} (h : s.Reads greedy rows) :
    ∃ inner, Members Node.Spans (s.pages.map .page) inner ∧ inner.Sublist (Row.tokens rows) :=
  Members.exists_map_rowsOfLines h fun _ _ hp => hp.spans

end Reads

/-! ## Ranges -/

namespace Node

variable {text : List Char} {n c : Node} {stretch : List Token}

/-- The range of a node runs from the first start to the last stop of its tokens. -/
theorem isHull_range (h : n.tokens ≠ []) : Range.IsHull (n.tokens.map Token.range) n.range :=
  Range.isHull_boundingBox (by simpa using h)

/-- The ranges of a node and of its children. -/
structure IsRanged (n : Node) : Prop where
  /-- The range of a node runs from the first start to the last stop of its tokens. -/
  hull : n.tokens ≠ [] → Range.IsHull (n.tokens.map Token.range) n.range
  /-- The range of a child lies within that of its parent. -/
  within : ∀ c ∈ n.children, c.range.IsWithin n.range
  /-- Comments aside, a child ends before the next one begins. -/
  apart : (n.children.filter (·.rule ≠ .comment)).Pairwise fun c d =>
    c.range.span.stop ≤ d.range.span.start

theorem Spans.perm_tokens (h : Node.Spans n stretch) : n.tokens.Perm stretch := by
  obtain ⟨hperm, -, -, -⟩ := h
  exact (sortByOffset_perm _).trans hperm

theorem Spans.tokens_ne_nil (h : Node.Spans n stretch) : n.tokens ≠ [] := fun hnil => by
  have hperm := h.perm_tokens
  obtain ⟨-, hne, -, -⟩ := h
  rw [hnil, List.nil_perm] at hperm
  exact hne hperm

/-- A node with tokens of another one lies within it. -/
theorem isWithin_range (hc : c.tokens ≠ []) (hsub : c.tokens ⊆ n.tokens)
    (hplaced : ∀ t ∈ n.tokens, t.range.IsPlaced text) : c.range.IsWithin n.range := by
  have hn : n.tokens ≠ [] := fun h => hc (List.subset_nil.1 (h ▸ hsub))
  exact (isHull_range hn).isWithin (isHull_range hc) (List.map_subset _ hsub)
    (List.forall_mem_map.2 hplaced)

/-- Nodes that are made of stretches one after the other have ranges one after the other. -/
theorem Spans.stop_le {later : List Token} {d : Node} (hc : Node.Spans c stretch)
    (hd : Node.Spans d later)
    (hbefore : ∀ t ∈ stretch, ∀ u ∈ later, t.range.span.stop ≤ u.range.span.start) :
    c.range.span.stop ≤ d.range.span.start := by
  refine (isHull_range hc.tokens_ne_nil).stop_le (isHull_range hd.tokens_ne_nil) ?_
  refine List.forall_mem_map.2 fun t ht => List.forall_mem_map.2 fun u hu => ?_
  exact hbefore t (hc.perm_tokens.subset ht) u (hd.perm_tokens.subset hu)

theorem pairwise_stop_le {nodes : List Node} {inner : List Token}
    (h : Members Node.Spans nodes inner) (hinner : IsLocated text inner) :
    nodes.Pairwise fun c d => c.range.span.stop ≤ d.range.span.start :=
  h.pairwise hinner.apart fun _ _ _ _ hc hd hbefore => hc.stop_le hd hbefore

theorem Spans.isRanged (h : Node.Spans n stretch) (hstretch : IsLocated text stretch) :
    n.IsRanged := by
  have hperm := h.perm_tokens
  obtain ⟨-, -, hmembers, hsub⟩ := h
  refine ⟨isHull_range, fun c hc => ?_,
    (pairwise_stop_le hmembers (hstretch.sublist hsub)).filter _⟩
  obtain ⟨part, hpart, hpartSub⟩ := hmembers.exists_of_mem hc
  refine isWithin_range hpart.tokens_ne_nil (fun t ht => ?_) fun t ht =>
    hstretch.placed t (hperm.subset ht)
  exact hperm.symm.subset (hsub.subset (hpartSub.subset (hpart.perm_tokens.subset ht)))

end Node

section Scene

variable {text : List Char} {tokens : List Token} {s : Scene} {rows : List Row} {greedy : Prop}

/-- Wherever its comments stand in the text, the range of a scene holds them and its pages. -/
theorem Scene.Reads.isRanged (h : s.Reads greedy rows) (hrows : IsLocated text (Row.tokens rows))
    (hcomments : ∀ c ∈ s.comments, c.token.range.IsPlaced text) : (Node.scene s).IsRanged := by
  obtain ⟨inner, hmembers, hsub⟩ := h.members
  have hperm : (Node.scene s).tokens.Perm (Row.tokens rows ++ s.comments.map Comment.token) :=
    (sortByOffset_perm _).trans (h.leaves_perm.append_right _)
  have hplaced : ∀ t ∈ (Node.scene s).tokens, t.range.IsPlaced text := fun t ht =>
    (List.mem_append.1 (hperm.subset ht)).elim (hrows.placed t) fun ht =>
      have ⟨c, hc, heq⟩ := List.mem_map.1 ht
      heq ▸ hcomments c hc
  refine ⟨Node.isHull_range, fun c hc => ?_, ?_⟩
  -- a page is within the range by its tokens, a comment by itself
  · rcases List.mem_append.1 hc with hpage | hcomment
    · obtain ⟨part, hpart, hpartSub⟩ := hmembers.exists_of_mem hpage
      refine Node.isWithin_range hpart.tokens_ne_nil (fun t ht => ?_) hplaced
      exact hperm.symm.subset (List.mem_append_left _
        (hsub.subset (hpartSub.subset (hpart.perm_tokens.subset ht))))
    · obtain ⟨c, hmem, rfl⟩ := List.mem_map.1 hcomment
      have htokens : (Node.comment c).tokens = [c.token] := rfl
      refine Node.isWithin_range (htokens ▸ List.cons_ne_nil _ _) (fun t ht => ?_) hplaced
      obtain rfl : t = c.token := List.mem_singleton.1 (htokens ▸ ht)
      exact hperm.symm.subset (List.mem_append_right _ (List.mem_map_of_mem hmem))
  · have hnone : (s.comments.map Node.comment).filter (·.rule ≠ .comment) = [] := by
      simp [List.filter_eq_nil_iff, Node.rule]
    rw [Node.children, List.filter_append, hnone, List.append_nil]
    exact (Node.pairwise_stop_le hmembers (hrows.sublist hsub)).filter _

end Scene

/-- The nodes that a walk enters are the scene, its comments, and nodes that are made of
    stretches of its rows. -/
theorem Scene.Reads.visited {text : List Char} {s : Scene} {rows : List Row} {greedy : Prop}
    (h : s.Reads greedy rows) (hrows : IsLocated text (Row.tokens rows)) :
    ∀ n, .enter n ∈ s.walk → n = .scene s ∨ (∃ c, n = .comment c) ∨
      ∃ stretch, Node.Spans n stretch ∧ IsLocated text stretch := by
  refine Node.forall_visited (n := .scene s) (.inl rfl) ?_
  rintro n (rfl | ⟨c, rfl⟩ | ⟨stretch, hspans, hstretch⟩) d hd
  · obtain ⟨inner, hmembers, hsub⟩ := h.members
    rcases List.mem_append.1 hd with hpage | hcomment
    · obtain ⟨part, hpart, hpartSub⟩ := hmembers.exists_of_mem hpage
      exact .inr (.inr ⟨part, hpart, hrows.sublist (hpartSub.trans hsub)⟩)
    · obtain ⟨c, -, rfl⟩ := List.mem_map.1 hcomment
      exact .inr (.inl ⟨c, rfl⟩)
  · exact absurd hd List.not_mem_nil
  · obtain ⟨-, -, hmembers, hsub⟩ := hspans
    obtain ⟨part, hpart, hpartSub⟩ := hmembers.exists_of_mem hd
    exact .inr (.inr ⟨part, hpart, hstretch.sublist (hpartSub.trans hsub)⟩)

namespace Parsing

/-- The tokens of a lexing are located in its text, and its comments are placed there. And whatever
    is parsed of tokens that are located in a text, with any limit and any comments that are placed
    there: every node that the walk through the scene enters has tokens, unless it is a scene that
    has none, and the ranges of a node and its children are as they should be. -/
theorem isRanged_scene (limit : Nat) :
    (∀ locale text, IsLocated text (Lexing.ofText locale text).tokens ∧
      ∀ t ∈ (Lexing.ofText locale text).comments, t.range.IsPlaced text) ∧
    ∀ text tokens comments, IsLocated text tokens →
      (∀ c ∈ comments, Range.IsPlaced text c.token.range) →
      ∀ s, s = { (ofTokens limit tokens).scene with comments := comments } →
      ∀ n, .enter n ∈ s.walk → (n.tokens = [] → n = .scene s) ∧ n.IsRanged := by
  refine ⟨fun locale text => ⟨Lexing.isLocated_tokens locale text, fun t ht => ?_⟩, ?_⟩
  · exact Lexing.isPlaced_of_mem t (List.mem_append_right _ ht)
  rintro text tokens comments htokens hcomments s hs n hn
  obtain ⟨rows, hreads, -, -, hsub, -⟩ := exists_rows limit tokens
  have hrows : IsLocated text (Row.tokens rows) := htokens.sublist (hsub.trans List.filter_sublist)
  -- the comments of a scene are none of its rows
  have hreads : s.Reads False rows := hs ▸ hreads
  rcases hreads.visited hrows n hn with rfl | ⟨c, rfl⟩ | ⟨stretch, hspans, hstretch⟩
  · exact ⟨fun _ => rfl, hreads.isRanged hrows (hs ▸ hcomments)⟩
  · exact ⟨nofun, Node.isHull_range, List.forall_mem_nil _, .nil⟩
  · exact ⟨fun hnil => absurd hnil hspans.tokens_ne_nil, hspans.isRanged hstretch⟩

/-- The names of an alignment and the comma between them nest in its range, though the comma comes
    after the names in the tree, and a line before it was not understood. -/
theorem isRanged_scene_alignment :
    ∃ text s, s = { (ofTokens 9 (Lexing.ofText .english text).tokens).scene with
        comments := (Lexing.ofText .english text).comments.map Comment.mk } ∧
      (ofTokens 9 (Lexing.ofText .english text).tokens).errors ≠ [] ∧
      ∃ a, .enter (.alignment a) ∈ s.walk ∧ a.commas ≠ [] ∧ (Node.alignment a).IsRanged := by
  obtain ⟨text, herrors, hwalk⟩ : ∃ text,
      (ofTokens 9 (Lexing.ofText .english text).tokens).errors ≠ [] ∧
      (Scene.walk { (ofTokens 9 (Lexing.ofText .english text).tokens).scene with
        comments := (Lexing.ofText .english text).comments.map Comment.mk }).any (fun
          | .enter (.alignment a) => !a.commas.isEmpty
          | _ => false) = true :=
    ⟨"Page: A // c\nBlocks \"B\"\nBlocks \"B\", <C> aligned in rows\n".toList, by decide +kernel,
      by decide +kernel⟩
  obtain ⟨hlexing, hscene⟩ := isRanged_scene 9
  obtain ⟨htokens, hplaced⟩ := hlexing .english text
  obtain ⟨step, hstep, hcommas⟩ := List.any_eq_true.1 hwalk
  split at hcommas
  · next a =>
    refine ⟨text, _, rfl, herrors, a, hstep, by simpa using hcommas, ?_⟩
    refine (hscene text _ _ htokens (fun c hc => ?_) _ rfl _ hstep).2
    obtain ⟨t, ht, rfl⟩ := List.mem_map.1 hc
    exact hplaced t ht
  · cases hcommas

end Parsing

end Wireframe
