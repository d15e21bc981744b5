import Wireframe.Proofs.Skeleton

/-!
# The items of a scene

The items of a scene, in lists or not, are those among its rows, in their order
(`Scene.Reads.items_eq`). An item is found by the tokens that it is written with
(`Row.item_mem_of_tokens`).
-/

namespace Wireframe

/-- The items of a scene, those of lists in their places. -/
def Scene.allItems (s : Scene) : List Item :=
  s.pages.flatMap fun p => p.blocks.flatMap Block.allItems

namespace Row

/-- The item that a row is. -/
def item? : Row → Option Item
  | item i => some i
  | _ => none

/-- The items among some rows. -/
def items (rows : List Row) : List Item :=
  rows.filterMap item?

theorem items_append (rows rows' : List Row) : items (rows ++ rows') = items rows ++ items rows' :=
  List.filterMap_append

end Row

/-! ## The items of a tree -/

section Items

variable {greedy : Prop} {rows : List Row} {α : Type} {P F : α → List Row → Prop}
  {f : α → List Item}

theorem RowsOf.items_eq {xs : List α} (h : RowsOf P F xs rows)
    (hP : ∀ x r, P x r → Row.items r = f x) : Row.items rows = xs.flatMap f := by
  induction h with
  | nil => rfl
  | cons hx _ _ ih => rw [Row.items_append, hP _ _ hx, ih, List.flatMap_cons]

theorem RowsOfLines.items_eq {members : List α} {blanks : List Token}
    (h : RowsOfLines P F members blanks rows) (hP : ∀ x r, P x r → Row.items r = f x) :
    Row.items rows = members.flatMap f := by
  refine h.induction (motive := fun members _ rows => Row.items rows = members.flatMap f) rfl ?_ ?_
  · exact fun _ _ _ _ _ ih => ih
  · intro x r members blanks rows hx _ _ ih
    rw [Row.items_append, hP x r hx, ih, List.flatMap_cons]

theorem Element.items_rows (e : Element) : Row.items e.rows = e.allItems := by
  cases e with
  | item i => rfl
  | list l =>
    change (l.items.map Row.item).filterMap Row.item? = l.items
    rw [List.filterMap_map]
    exact List.filterMap_some

theorem ElementGroup.Reads.items_eq {g : ElementGroup} (h : g.Reads greedy rows) :
    Row.items rows = g.entries.flatMap Element.allItems := by
  obtain ⟨rest, h, rfl⟩ := h
  rw [Row.items_append, h.items_eq fun e r he => he ▸ e.items_rows]
  cases g.direction <;> rfl

theorem Block.Reads.items_eq {b : Block} (h : b.Reads greedy rows) :
    Row.items rows = b.allItems := by
  obtain ⟨rest, h, rfl⟩ := h
  change Row.items rest = _
  exact RowsOf.items_eq h fun g r hg => hg.1.items_eq

theorem BlockGroup.Reads.items_eq {g : BlockGroup} (h : g.Reads greedy rows) :
    Row.items rows = g.blocks.flatMap Block.allItems := by
  obtain ⟨rest, h, rfl⟩ := h
  rw [Row.items_append, h.items_eq fun b r hb => hb.items_eq]
  cases g.alignment <;> rfl

theorem Page.Reads.items_eq {p : Page} (h : p.Reads greedy rows) :
    Row.items rows = p.blocks.flatMap Block.allItems := by
  obtain ⟨rest, h, rfl⟩ := h
  change Row.items rest = _
  rw [Page.blocks, List.flatMap_assoc]
  exact RowsOf.items_eq h fun g r hg => hg.1.items_eq

/-- The items of a scene are those among its rows. -/
theorem Scene.Reads.items_eq {s : Scene} (h : s.Reads greedy rows) : Row.items rows = s.allItems :=
  RowsOfLines.items_eq h fun _ _ hp => hp.items_eq

end Items

/-! ## The tokens of an item -/

/-- Whether a kind is the keyword for a widget. -/
def TokenKind.isWidget : TokenKind → Bool
  | .keyword k => (Widget.ofKeyword? k).isSome
  | _ => false

theorem Value.isWidget_kind {v : Value} (h : v.IsWellFormed) : v.token.kind.isWidget = false := by
  rw [show v.token.kind = v.kind from h]
  cases v <;> rfl

theorem Literal.isWidget_kind {l : Literal} (h : l.IsWellFormed) :
    l.token.kind.isWidget = false := by
  rw [show l.token.kind = l.kind from h]
  cases l <;> rfl

theorem Direction.isWidget_leaves {d : Direction} (h : d.IsWellFormed) :
    ∀ t ∈ d.leaves, t.kind.isWidget = false := by
  refine List.forall_mem_append.2 ⟨List.forall_mem_map.2 fun c hc => ?_, ?_⟩
  · have hcount : c.token.count? = some c.value := h.count c (Option.mem_toList.1 hc)
    cases hkind : c.token.kind with
    | keyword => simp [Token.count?, hkind] at hcount
    | _ => rfl
  · simp only [List.forall_mem_cons, h.keyword, h.lineEnd]
    exact ⟨by cases d.axis <;> rfl, rfl, nofun⟩

namespace Row

variable {r : Row} {rows : List Row} {kind : Widget} {before after : List Token} {k v e : Token}

theorem isWidget_titleLeaves {title : Option Value} (h : ∀ v ∈ title, v.IsWellFormed) :
    ∀ t ∈ title.toList.map Value.token, t.kind.isWidget = false :=
  List.forall_mem_map.2 fun v hv => Value.isWidget_kind (h v (Option.mem_toList.1 hv))

/-- Only items have the keyword of a widget. -/
theorem isWidget_leaves (hr : r.IsWellFormed) (hitem : r.isItem = false) :
    ∀ t ∈ r.leaves, t.kind.isWidget = false := by
  have hone {t : Token} {kind : TokenKind} (ht : t.kind = kind) (hkind : kind.isWidget = false) :
      t.kind.isWidget = false := ht ▸ hkind
  cases r with
  | blank t => exact List.forall_mem_singleton.2 (hone hr rfl)
  | page device k title e =>
    obtain ⟨hdevice, hk, htitle, he⟩ := hr
    refine List.forall_mem_append.2 ⟨List.forall_mem_map.2 fun d hd => ?_, ?_⟩
    · exact hone (hdevice d (Option.mem_toList.1 hd)) (by cases d.device <;> rfl)
    · simpa using ⟨hone hk rfl, Value.isWidget_kind htitle, hone he rfl⟩
  | alignment a =>
    obtain ⟨hk, hnames, hcommas, -, haligned, hdirection⟩ := hr
    refine List.forall_mem_cons.2 ⟨hone hk rfl, List.forall_mem_append.2 ⟨fun t ht => ?_,
      List.forall_mem_cons.2 ⟨hone haligned rfl, Direction.isWidget_leaves hdirection⟩⟩⟩
    rcases List.mem_append.1 ((separated_perm _ _).mem_iff.1 ht) with ht | ht
    · obtain ⟨l, hl, rfl⟩ := List.mem_map.1 ht
      exact Literal.isWidget_kind (hnames l hl)
    · exact hone (hcommas t ht) rfl
  | block k title e =>
    obtain ⟨hk, htitle, he⟩ := hr
    exact List.forall_mem_cons.2 ⟨hone hk rfl, List.forall_mem_append.2
      ⟨isWidget_titleLeaves htitle, List.forall_mem_singleton.2 (hone he rfl)⟩⟩
  | direction d => exact Direction.isWidget_leaves hr
  | list k title headerEnd c e =>
    obtain ⟨hk, htitle, hheader, hc, he⟩ := hr
    refine List.forall_mem_cons.2 ⟨hone hk rfl, List.forall_mem_append.2
      ⟨List.forall_mem_append.2 ⟨isWidget_titleLeaves htitle, fun t ht => ?_⟩, ?_⟩⟩
    · exact hone (hheader t (Option.mem_toList.1 ht)) rfl
    · simpa using ⟨hone hc rfl, hone he rfl⟩
  | item => cases hitem

/-- The keyword of a widget is the first token of an item. -/
theorem eq_item_of_leaves (hr : r.IsWellFormed) (h : r.leaves = before ++ k :: after)
    (hk : k.kind = .keyword kind.keyword) :
    before = [] ∧ ∃ value e, r = .item ⟨.widget kind k value, e⟩ := by
  have hnot : ¬ k.kind.isWidget = false := by
    rw [hk]
    cases kind <;> exact Bool.noConfusion
  have hmem : k ∈ r.leaves := h ▸ List.mem_append_right _ List.mem_cons_self
  cases r with
  | item i =>
    obtain ⟨content, e⟩ := i
    obtain ⟨hcontent, he⟩ := hr
    have hlineEnd : e.kind.isWidget = false := by
      rw [he]
      rfl
    cases content with
    | widget kind' keyword value =>
      obtain ⟨hkeyword, hvalue⟩ := hcontent
      -- after the first token of an item there are only a value and a line end
      cases before with
      | nil =>
        obtain ⟨rfl, -⟩ := List.cons.inj h
        obtain rfl : kind' = kind := by
          have := TokenKind.keyword.inj (hkeyword.symm.trans hk)
          cases kind' <;> cases kind <;> first | rfl | cases this
        exact ⟨rfl, value, e, rfl⟩
      | cons t before =>
        have hsplit : value.toList.map Value.token ++ [e] = before ++ k :: after :=
          (List.cons.inj h).2
        have hrest : k ∈ value.toList.map Value.token ++ [e] :=
          hsplit ▸ List.mem_append_right _ List.mem_cons_self
        rcases List.mem_append.1 hrest with hrest | hrest
        · exact absurd (isWidget_titleLeaves hvalue k hrest) hnot
        · exact absurd (List.mem_singleton.1 hrest ▸ hlineEnd) hnot
    | literal l =>
      rcases List.mem_cons.1 hmem with rfl | hrest
      · exact absurd (Literal.isWidget_kind hcontent) hnot
      · exact absurd (List.mem_singleton.1 hrest ▸ hlineEnd) hnot
  | _ => exact absurd (isWidget_leaves hr rfl k hmem) hnot

/-- A widget with a quotation is an item where its tokens are. -/
theorem item_mem_of_tokens (hwell : ∀ r ∈ rows, r.IsWellFormed)
    (h : tokens rows = before ++ k :: v :: e :: after) (hk : k.kind = .keyword kind.keyword)
    (hv : v.kind = .quotation) :
    .item ⟨.widget kind k (some (.quotation v)), e⟩ ∈ rows := by
  induction rows generalizing before with
  | nil => exact absurd h.symm (List.append_ne_nil_of_right_ne_nil _ (List.cons_ne_nil _ _))
  | cons r rows ih =>
    obtain ⟨hr, hrows⟩ := List.forall_mem_cons.1 hwell
    replace ih (before' : List Token) (h : tokens rows = before' ++ k :: v :: e :: after) :=
      ih hrows h
    rw [tokens_cons] at h
    -- the keyword is in a later row or in this one
    rcases List.append_eq_append_iff.1 h with ⟨rest, rfl, hrest⟩ | ⟨rest, hleaves, hrest⟩
    · exact List.mem_cons_of_mem _ (ih _ hrest)
    cases rest with
    | nil => exact List.mem_cons_of_mem _ (ih [] hrest.symm)
    | cons k' rest =>
      obtain ⟨rfl, htail⟩ := List.cons.inj hrest
      -- a row with the keyword of a widget is an item that it begins
      obtain ⟨rfl, value, e', rfl⟩ := eq_item_of_leaves hr hleaves hk
      obtain ⟨⟨-, hvalue⟩, he'⟩ := hr
      obtain rfl : value.toList.map Value.token ++ [e'] = rest := (List.cons.inj hleaves).2
      cases value with
      | none =>
        obtain ⟨rfl, -⟩ := List.cons.inj htail
        rw [hv] at he'
        cases he'
      | some w =>
        obtain ⟨rfl, hend⟩ := List.cons.inj htail
        obtain ⟨rfl, -⟩ := List.cons.inj hend
        have hw : w.token.kind = w.kind := hvalue w rfl
        rw [hv] at hw
        cases w with
        | quotation t => exact List.mem_cons_self
        | _ => cases hw

end Row

end Wireframe
