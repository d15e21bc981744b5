import Wireframe.Proofs.Grammar.Fidelity
import Wireframe.Proofs.Skeleton
import Wireframe.Scene.Walk

/-!
# What recovery leaves

A parse with errors drops lines, and with them the parts of the tree that they begin; what was in
these may end up in the part before. Yet what is left is always a scene that the grammar allows: its
own tokens are parsed without an error, and to the same skeleton (`Parsing.reparse_scene_spec`).
Only the groups may differ, as lines that were dropped may have kept them apart.
-/

namespace Wireframe

/-! ## Well-formed nodes -/

namespace Node

/-- The tokens that a node holds itself have the kinds that its rule demands: keywords those for
    what they say, a device, an axis or a widget. A number is twelve at most. -/
def IsWellFormed : Node → Prop
  | scene _ => True
  | page p => p.headRow.IsWellFormed
  | blocks _ => True
  | alignment a => a.IsWellFormed
  | block b => b.headRow.IsWellFormed
  | elements _ => True
  | direction d => d.IsWellFormed
  | item i => i.IsWellFormed
  | list l => l.headRow.IsWellFormed
  | value v => v.IsWellFormed
  | literal l => l.IsWellFormed
  | number c => c.IsWellFormed ∧ c.value ≤ 12
  | comment _ => True

end Node

/-- Every node that the given steps enter is well-formed. -/
def EntersWellFormed (steps : List Step) : Prop :=
  ∀ n, .enter n ∈ steps → n.IsWellFormed

namespace EntersWellFormed

variable {steps steps' : List Step}

theorem nil : EntersWellFormed [] := fun _ h => absurd h List.not_mem_nil

theorem leave (n : Node) : EntersWellFormed [.leave n] := fun _ h =>
  Step.noConfusion (List.mem_singleton.1 h)

theorem enter {n : Node} (hn : n.IsWellFormed) (h : EntersWellFormed steps) :
    EntersWellFormed (.enter n :: steps) := by
  intro n' hn'
  rcases List.mem_cons.1 hn' with heq | hmem
  · rwa [Step.enter.inj heq]
  · exact h n' hmem

theorem append (h : EntersWellFormed steps) (h' : EntersWellFormed steps') :
    EntersWellFormed (steps ++ steps') := fun n hn =>
  (List.mem_append.1 hn).elim (h n) (h' n)

theorem flatMap {α : Type} {xs : List α} {f : α → List Step}
    (h : ∀ x ∈ xs, EntersWellFormed (f x)) : EntersWellFormed (xs.flatMap f) := by
  intro n hn
  obtain ⟨x, hx, hn⟩ := List.mem_flatMap.1 hn
  exact h x hx n hn

theorem option {α : Type} {o : Option α} {f : α → List Step}
    (h : ∀ x ∈ o, EntersWellFormed (f x)) : EntersWellFormed (o.toList.flatMap f) :=
  flatMap fun x hx => h x (Option.mem_toList.1 hx)

end EntersWellFormed

section Walk

variable {greedy : Prop} {rows : List Row}

theorem smallNumber?_le {image : List Char} {n : Nat} (h : smallNumber? image = some n) :
    n ≤ 12 := by
  rw [smallNumber?.eq_def] at h
  simp only [Option.ite_none_left_eq_some, Option.ite_none_right_eq_some, Option.some.injEq] at h
  obtain ⟨-, hle, rfl⟩ := h
  exact hle

theorem count?_le {t : Token} {n : Nat} (h : t.count? = some n) : n ≤ 12 := by
  rw [Token.count?] at h
  split at h
  · next m _ => exact Option.some.inj h ▸ Nat.le_of_lt_succ m.value_lt
  · exact smallNumber?_le h
  · cases h

theorem Value.IsWellFormed.enters {v : Value} (h : v.IsWellFormed) : EntersWellFormed v.walk :=
  .enter h .nil

theorem Literal.IsWellFormed.enters {l : Literal} (h : l.IsWellFormed) : EntersWellFormed l.walk :=
  .enter h .nil

theorem Direction.IsWellFormed.enters {d : Direction} (h : d.IsWellFormed) :
    EntersWellFormed d.walk :=
  .enter h (.option fun c hc => .enter ⟨h.count c hc, count?_le (h.count c hc)⟩ .nil)

theorem Item.IsWellFormed.enters {i : Item} (h : i.IsWellFormed) : EntersWellFormed i.walk := by
  obtain ⟨content, lineEnd⟩ := i
  refine .enter h ?_
  cases content with
  | widget kind keyword value => exact .option fun v hv => (h.content.2 v hv).enters
  | literal l => exact Literal.IsWellFormed.enters h.content

theorem ItemList.enters {l : ItemList} (h : ∀ r ∈ l.rows, r.IsWellFormed) :
    EntersWellFormed l.walk := by
  obtain ⟨hhead, hitems⟩ := List.forall_mem_cons.1 h
  have hall : ∀ i ∈ l.items, EntersWellFormed i.walk := fun i hi =>
    Item.IsWellFormed.enters (hitems _ (List.mem_map_of_mem hi))
  exact .append (.append (.enter hhead (.option fun v hv => (hhead.2.1 v hv).enters))
    (.flatMap hall)) (.leave _)

theorem Element.enters {e : Element} (h : ∀ r ∈ e.rows, r.IsWellFormed) :
    EntersWellFormed e.walk := by
  cases e with
  | item i => exact Item.IsWellFormed.enters (h _ List.mem_cons_self)
  | list l => exact ItemList.enters h

theorem ElementGroup.Reads.enters {g : ElementGroup} (h : g.Reads greedy rows)
    (hwell : ∀ r ∈ rows, r.IsWellFormed) : EntersWellFormed g.walk := by
  obtain ⟨rest, h, rfl⟩ := h
  obtain ⟨hlead, hrest⟩ := List.forall_mem_append.1 hwell
  have hdirection : ∀ d ∈ g.direction, EntersWellFormed d.walk := fun d hd =>
    Direction.IsWellFormed.enters (hlead _ (List.mem_map_of_mem (Option.mem_toList.2 hd)))
  refine .append (.append (.enter trivial (.option hdirection)) (.flatMap ?_)) (.leave _)
  exact h.forall_member hrest fun e r he hr => Element.enters (he ▸ hr)

theorem Block.Reads.enters {b : Block} (h : b.Reads greedy rows)
    (hwell : ∀ r ∈ rows, r.IsWellFormed) : EntersWellFormed b.walk := by
  obtain ⟨rest, h, rfl⟩ := h
  obtain ⟨hhead, hrest⟩ := List.forall_mem_cons.1 hwell
  refine .append (.append (.enter hhead (.option fun v hv => (hhead.2.1 v hv).enters))
    (.flatMap ?_)) (.leave _)
  exact RowsOf.forall_member h hrest fun g r hg hr => hg.1.enters hr

theorem Alignment.IsWellFormed.enters {a : Alignment} (h : a.IsWellFormed) :
    EntersWellFormed a.walk :=
  .append (.enter h (.flatMap fun l hl => (h.names l hl).enters)) h.direction.enters

theorem BlockGroup.Reads.enters {g : BlockGroup} (h : g.Reads greedy rows)
    (hwell : ∀ r ∈ rows, r.IsWellFormed) : EntersWellFormed g.walk := by
  obtain ⟨rest, h, rfl⟩ := h
  obtain ⟨hlead, hrest⟩ := List.forall_mem_append.1 hwell
  have halignment : ∀ a ∈ g.alignment, EntersWellFormed a.walk := fun a ha =>
    Alignment.IsWellFormed.enters (hlead _ (List.mem_map_of_mem (Option.mem_toList.2 ha)))
  refine .append (.append (.enter trivial (.option halignment)) (.flatMap ?_)) (.leave _)
  exact h.forall_member hrest fun b r hb hr => hb.enters hr

theorem Page.Reads.enters {p : Page} (h : p.Reads greedy rows)
    (hwell : ∀ r ∈ rows, r.IsWellFormed) : EntersWellFormed p.walk := by
  obtain ⟨rest, h, rfl⟩ := h
  obtain ⟨hhead, hrest⟩ := List.forall_mem_cons.1 hwell
  refine .append (.append (.enter hhead hhead.2.2.1.enters) (.flatMap ?_)) (.leave _)
  exact RowsOf.forall_member h hrest fun g r hg hr => hg.1.enters hr

/-- A scene of well-formed rows has well-formed nodes. -/
theorem Scene.Reads.enters {s : Scene} (h : s.Reads greedy rows)
    (hwell : ∀ r ∈ rows, r.IsWellFormed) : EntersWellFormed s.walk := by
  refine .append (.append (.enter trivial (.flatMap ?_)) (.flatMap fun c _ => ?_)) (.leave _)
  · exact RowsOfLines.forall_member h hwell fun p r hp hr => hp.enters hr
  · exact .enter trivial .nil

end Walk

namespace Parsing

/-- A row of tokens has nothing that the grammar leaves out. -/
theorem kept_eq_of_sublist {tokens some : List Token} (h : some.Sublist (kept tokens)) :
    kept some = some :=
  List.filter_eq_self.2 fun _ ht => (List.mem_filter.1 (h.subset ht)).2

/-- Whatever the tokens are, and wherever the limit stops the parse: the tokens of the scene that
    comes out are parsed without an error, to a scene of the same pages, blocks and items, and every
    node of the scene is well-formed. -/
theorem reparse_scene_spec (limit : Nat) (tokens : List Token) (horder : InOrder tokens) :
    (∀ limit' : Nat,
      (ofTokens limit' (Node.scene (ofTokens limit tokens).scene).tokens).errors = [] ∧
        (ofTokens limit' (Node.scene (ofTokens limit tokens).scene).tokens).scene.skeleton =
          (ofTokens limit tokens).scene.skeleton) ∧
      ∀ n, .enter n ∈ (ofTokens limit tokens).scene.walk → n.IsWellFormed := by
  obtain ⟨rows, hreads, hcomments, hwell, hsub, -⟩ := exists_rows limit tokens
  obtain ⟨s, hgreedy, hnone⟩ := hreads.exists_greedy
  have hrows : InOrder (Row.tokens rows) := (horder.sublist List.filter_sublist).sublist hsub
  refine ⟨fun limit' => ?_, hreads.enters hwell⟩
  rw [tokens_scene_eq hreads hcomments hrows,
    ofTokens_of_reads hgreedy hnone hwell (kept_eq_of_sublist hsub) limit']
  exact ⟨rfl, hgreedy.skeleton_eq hreads⟩

theorem reparse_scene_spec_dropped_lines :
    InOrder
      (Lexing.ofText .english "Page: A\nBlock: B\n13 rows\nlist x\nButton y\n".toList).tokens ∧
      (ofTokens 9 (Lexing.ofText .english
        "Page: A\nBlock: B\n13 rows\nlist x\nButton y\n".toList).tokens).errors ≠ [] ∧
      (ofTokens 1 (Node.scene (ofTokens 9 (Lexing.ofText .english
        "Page: A\nBlock: B\n13 rows\nlist x\nButton y\n".toList).tokens).scene).tokens).errors =
        [] := by
  have horder : InOrder
      (Lexing.ofText .english "Page: A\nBlock: B\n13 rows\nlist x\nButton y\n".toList).tokens := by
    unfold InOrder
    decide +kernel
  exact ⟨horder, by decide +kernel, ((reparse_scene_spec 9 _ horder).1 1).1⟩

end Parsing

end Wireframe
