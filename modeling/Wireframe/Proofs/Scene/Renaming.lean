import Wireframe.Proofs.Essence
import Wireframe.Proofs.Grammar.Diagnosis

/-!
# Tokens that stand for the same

A parse looks at the kinds of tokens and at the counts that numbers stand for, and at nothing else.
So when tokens are exchanged for others that stand for the same (`IsRenaming`), what the grammar
accepts stays the same (`Parsing.errors_map_eq_nil_iff`), and so does the tree, but for its tokens
(`Parsing.ofTokens_map`).
-/

namespace Wireframe

/-- A change of tokens after which they stand for the same. -/
structure IsRenaming (f : Token → Token) : Prop where
  kind : ∀ t, (f t).kind = t.kind
  count? : ∀ t, (f t).count? = t.count?

/-- It is enough to keep the kinds of tokens and the texts of numbers. -/
theorem IsRenaming.of_image {f : Token → Token} (hkind : ∀ t, (f t).kind = t.kind)
    (himage : ∀ t, t.kind = .number → (f t).image = t.image) : IsRenaming f where
  kind := hkind
  count? t := by
    rw [Token.count?, Token.count?, hkind]
    cases ht : t.kind with
    | number => rw [Token.chars, Token.chars, himage t ht]
    | _ => rfl

/-! ## Rows of other tokens -/

namespace Row

/-- A row with other tokens. -/
def map (f : Token → Token) : Row → Row
  | blank t => blank (f t)
  | page d k t e => page (d.map (DeviceTag.map f)) (f k) (t.map f) (f e)
  | alignment a => alignment (a.map f)
  | block k t e => block (f k) (t.map (Value.map f)) (f e)
  | direction d => direction (d.map f)
  | list k t h c e => list (f k) (t.map (Value.map f)) (h.map f) (f c) (f e)
  | item i => item (i.map f)

end Row

section Map

variable (f : Token → Token)

@[simp] theorem Value.token_map (v : Value) : (v.map f).token = f v.token := by
  cases v <;> rfl

@[simp] theorem Value.kind_map (v : Value) : (v.map f).kind = v.kind := by
  cases v <;> rfl

@[simp] theorem Literal.token_map (l : Literal) : (l.map f).token = f l.token := by
  cases l <;> rfl

@[simp] theorem Literal.kind_map (l : Literal) : (l.map f).kind = l.kind := by
  cases l <;> rfl

theorem separated_map (tokens separators : List Token) :
    separated (tokens.map f) (separators.map f) = (separated tokens separators).map f := by
  induction tokens generalizing separators with
  | nil => cases separators <;> rfl
  | cons t tokens ih =>
    cases separators with
    | nil => rfl
    | cons s separators => exact congrArg (f t :: f s :: ·) (ih separators)

theorem Direction.leaves_map (d : Direction) : (d.map f).leaves = d.leaves.map f := by
  obtain ⟨_ | c, k, axis, e⟩ := d <;> rfl

theorem Item.leaves_map (i : Item) : (i.map f).leaves = i.leaves.map f := by
  obtain ⟨⟨kind, k, _ | v⟩ | l, e⟩ := i
  · rfl
  · simp [map, mapContent, leaves, contentLeaves]
  · simp [map, mapContent, leaves, contentLeaves]

namespace Row

theorem leaves_map (r : Row) : (r.map f).leaves = r.leaves.map f := by
  cases r with
  | blank t => rfl
  | page d k t e => cases d <;> simp [map, leaves, DeviceTag.map]
  | alignment a =>
    have hnames : (a.names.map (Literal.map f)).map Literal.token =
        (a.names.map Literal.token).map f := by
      simp [Function.comp_def]
    simp only [map, leaves, Alignment.written, Alignment.map, Direction.leaves_map, hnames,
      separated_map, List.map_cons, List.map_append, List.cons_append]
  | block k t e => cases t <;> simp [map, leaves]
  | direction d => exact d.leaves_map f
  | list k t h c e => cases t <;> cases h <;> simp [map, leaves]
  | item i => exact i.leaves_map f

theorem tokens_map (rows : List Row) : tokens (rows.map (map f)) = (tokens rows).map f := by
  rw [tokens, tokens, List.flatMap_map, List.map_flatMap]
  exact List.flatMap_congr fun r _ => r.leaves_map f

@[simp] theorem isItem_map (r : Row) : (r.map f).isItem = r.isItem := by
  cases r <;> rfl

@[simp] theorem isDirection_map (r : Row) : (r.map f).isDirection = r.isDirection := by
  cases r <;> rfl

@[simp] theorem isBlock_map (r : Row) : (r.map f).isBlock = r.isBlock := by
  cases r <;> rfl

@[simp] theorem isAlignment_map (r : Row) : (r.map f).isAlignment = r.isAlignment := by
  cases r <;> rfl

@[simp] theorem isPage_map (r : Row) : (r.map f).isPage = r.isPage := by
  cases r <;> rfl

end Row

end Map

/-! ## Well-formed rows stay well-formed -/

section WellFormed

variable {f : Token → Token} (hf : IsRenaming f)

include hf

theorem Value.IsWellFormed.map {v : Value} (h : v.IsWellFormed) : (v.map f).IsWellFormed := by
  rw [IsWellFormed, token_map, kind_map, hf.kind]
  exact h

theorem Value.isWellFormed_map {title : Option Value} (h : ∀ v ∈ title, v.IsWellFormed) :
    ∀ v ∈ title.map (Value.map f), v.IsWellFormed :=
  Option.forall_mem_map.2 fun v hv => (h v hv).map hf

theorem Literal.IsWellFormed.map {l : Literal} (h : l.IsWellFormed) : (l.map f).IsWellFormed := by
  rw [IsWellFormed, token_map, kind_map, hf.kind]
  exact h

theorem Direction.IsWellFormed.map {d : Direction} (h : d.IsWellFormed) :
    (d.map f).IsWellFormed where
  count := Option.forall_mem_map.2 fun c hc => (hf.count? c.token).trans (h.count c hc)
  keyword := (hf.kind d.keyword).trans h.keyword
  lineEnd := (hf.kind d.lineEnd).trans h.lineEnd

theorem Item.IsWellFormed.map {i : Item} (h : i.IsWellFormed) : (i.map f).IsWellFormed where
  content := by
    obtain ⟨content, lineEnd⟩ := i
    cases content with
    | widget kind k v =>
      exact ⟨(hf.kind k).trans h.content.1, Value.isWellFormed_map hf h.content.2⟩
    | literal l => exact Literal.IsWellFormed.map hf h.content
  lineEnd := (hf.kind i.lineEnd).trans h.lineEnd

theorem Alignment.IsWellFormed.map {a : Alignment} (h : a.IsWellFormed) :
    (a.map f).IsWellFormed where
  keyword := (hf.kind a.keyword).trans h.keyword
  names := List.forall_mem_map.2 fun l hl => (h.names l hl).map hf
  commas := List.forall_mem_map.2 fun t ht => (hf.kind t).trans (h.commas t ht)
  between := by
    change (a.commas.map f).length = (a.names.map (Literal.map f)).length - 1
    rw [List.length_map, List.length_map, h.between]
  aligned := (hf.kind a.aligned).trans h.aligned
  direction := h.direction.map hf

theorem Row.IsWellFormed.map {r : Row} (h : r.IsWellFormed) : (r.map f).IsWellFormed := by
  cases r with
  | blank t => exact (hf.kind t).trans h
  | page d k t e =>
    exact ⟨Option.forall_mem_map.2 fun tag htag => (hf.kind tag.token).trans (h.1 tag htag),
      (hf.kind k).trans h.2.1, h.2.2.1.map hf, (hf.kind e).trans h.2.2.2⟩
  | alignment a => exact Alignment.IsWellFormed.map hf h
  | block k t e =>
    exact ⟨(hf.kind k).trans h.1, Value.isWellFormed_map hf h.2.1, (hf.kind e).trans h.2.2⟩
  | direction d => exact Direction.IsWellFormed.map hf h
  | list k t b c e =>
    exact ⟨(hf.kind k).trans h.1, Value.isWellFormed_map hf h.2.1,
      Option.forall_mem_map.2 fun u hu => (hf.kind u).trans (h.2.2.1 u hu),
      (hf.kind c).trans h.2.2.2.1, (hf.kind e).trans h.2.2.2.2⟩
  | item i => exact Item.IsWellFormed.map hf h

end WellFormed

/-! ## Other tokens in the same places -/

section Reads

variable {f : Token → Token} {greedy : Prop} {rows : List Row}
  {α : Type} {P F P' F' : α → List Row → Prop} {g : α → α}

theorem RowsOf.map (hP : ∀ x r, P x r → P' (g x) (r.map (Row.map f)))
    (hF : ∀ x r, F x r → F' (g x) (r.map (Row.map f))) {xs : List α} (h : RowsOf P F xs rows) :
    RowsOf P' F' (xs.map g) (rows.map (Row.map f)) := by
  induction h with
  | nil => exact .nil
  | cons hx hrest _ ih =>
    rw [List.map_append]
    exact .cons (hP _ _ hx) (hF _ _ hrest) ih

theorem RowsOfLines.map (hP : ∀ x r, P x r → P' (g x) (r.map (Row.map f)))
    (hF : ∀ x r, F x r → F' (g x) (r.map (Row.map f))) {members : List α} {blanks : List Token}
    (h : RowsOfLines P F members blanks rows) :
    RowsOfLines P' F' (members.map g) (blanks.map f) (rows.map (Row.map f)) := by
  refine h.induction (motive := fun members blanks rows =>
    RowsOfLines P' F' (members.map g) (blanks.map f) (rows.map (Row.map f))) .nil ?_ ?_
  · exact fun t _ _ _ _ ih => ih.blank (f t)
  · intro x r members blanks rows hx hrest _ ih
    rw [List.map_append]
    exact ih.content (hP _ _ hx) (hF _ _ hrest)

/-- Whether what follows begins with a row of some sort does not depend on the tokens. -/
theorem Row.head?_map {p : Row → Bool} {b : Bool} (hp : ∀ r : Row, p (r.map f) = p r)
    (h : ∀ r ∈ rows.head?, p r = b) : ∀ r ∈ (rows.map (Row.map f)).head?, p r = b := by
  rw [List.head?_map]
  exact Option.forall_mem_map.2 fun r hr => (hp r).trans (h r hr)

theorem ItemList.rows_map (l : ItemList) : (l.map f).rows = l.rows.map (Row.map f) := by
  simp [rows, headRow, map, Row.map]

theorem Element.rows_map (e : Element) : (e.map f).rows = e.rows.map (Row.map f) := by
  cases e with
  | item i => rfl
  | list l => exact l.rows_map

theorem Element.Allows.map {e : Element} (h : e.Allows greedy rows) :
    (e.map f).Allows greedy (rows.map (Row.map f)) := by
  cases e with
  | item i => trivial
  | list l => exact fun hgreedy => Row.head?_map (Row.isItem_map f) (h hgreedy)

theorem ElementGroup.Reads.map {g : ElementGroup} (h : g.Reads greedy rows) :
    (g.map f).Reads greedy (rows.map (Row.map f)) := by
  obtain ⟨rest, h, rfl⟩ := h
  refine ⟨rest.map (Row.map f), h.map (fun e r he => ?_) fun e r he => he.map, ?_⟩
  · rw [he, e.rows_map]
  · cases hd : g.direction <;> simp [ElementGroup.map, hd, Row.map]

theorem Block.Reads.map {b : Block} (h : b.Reads greedy rows) :
    (b.map f).Reads greedy (rows.map (Row.map f)) := by
  obtain ⟨rest, h, rfl⟩ := h
  exact ⟨rest.map (Row.map f), RowsOf.map (fun g r hg => ⟨hg.1.map, by simpa using hg.2⟩)
    (fun g r hr hgreedy => Row.head?_map (Row.isDirection_map f) (hr hgreedy)) h, rfl⟩

theorem BlockGroup.Reads.map {g : BlockGroup} (h : g.Reads greedy rows) :
    (g.map f).Reads greedy (rows.map (Row.map f)) := by
  obtain ⟨rest, h, rfl⟩ := h
  refine ⟨rest.map (Row.map f), h.map (fun b r hb => hb.map) fun b r hr hgreedy => ?_, ?_⟩
  · exact Row.head?_map (Row.isBlock_map f) (hr hgreedy)
  · cases ha : g.alignment <;> simp [BlockGroup.map, ha, Row.map]

theorem Page.Reads.map {p : Page} (h : p.Reads greedy rows) :
    (p.map f).Reads greedy (rows.map (Row.map f)) := by
  obtain ⟨rest, h, rfl⟩ := h
  exact ⟨rest.map (Row.map f), RowsOf.map (fun g r hg => ⟨hg.1.map, by simpa using hg.2⟩)
    (fun g r hr hgreedy => Row.head?_map (Row.isAlignment_map f) (hr hgreedy)) h, rfl⟩

/-- With other tokens, a scene groups its rows in the same way. -/
theorem Scene.Reads.map {s : Scene} (h : s.Reads greedy rows) :
    (s.map f).Reads greedy (rows.map (Row.map f)) :=
  RowsOfLines.map (fun _ _ hp => hp.map)
    (fun _ _ hr hgreedy => Row.head?_map (Row.isPage_map f) (hr hgreedy)) h

end Reads

/-! ## Parsing other tokens -/

section Parsing

variable {f : Token → Token} (hf : IsRenaming f)

include hf

theorem Stage.run?_map (σ : Stage) (tokens : List Token) :
    σ.run? (tokens.map f) = σ.run? tokens := by
  induction tokens generalizing σ with
  | nil => rfl
  | cons t tokens ih =>
    -- a step looks at the kind of a token and at its count
    have hstep : σ.step? (f t) = σ.step? t := by
      rw [step?, step?, Token.isUsable, Token.isUsable, hf.kind, hf.count?]
    rw [List.map_cons, run?_cons, run?_cons, hstep]
    exact congrArg _ (funext ih)

namespace Parsing

theorem kept_map (tokens : List Token) : kept (tokens.map f) = (kept tokens).map f := by
  rw [kept, List.filter_map]
  exact congrArg (List.map f) (List.filter_congr fun t _ => by rw [Function.comp_apply, hf.kind])

theorem errors_map_eq_nil_iff (limit limit' : Nat) (tokens : List Token) :
    (ofTokens limit' (tokens.map f)).errors = [] ↔ (ofTokens limit tokens).errors = [] := by
  rw [errors_eq_nil_iff_run, errors_eq_nil_iff_run, kept_map hf, Stage.run?_map hf]

/-- Tokens that stand for the same are parsed to the same tree, but for its tokens. -/
theorem ofTokens_map {limit : Nat} {tokens : List Token} (h : (ofTokens limit tokens).errors = [])
    (limit' : Nat) :
    ofTokens limit' (tokens.map f) = ⟨(ofTokens limit tokens).scene.map f, []⟩ := by
  obtain ⟨rows, hreads, hcomments, hwell, htokens⟩ := exists_greedy_rows h
  refine ofTokens_of_reads hreads.map ?_ ?_ ?_ limit'
  · rw [Scene.map, hcomments]
    rfl
  · exact List.forall_mem_map.2 fun r hr => (hwell r hr).map hf
  · rw [kept_map hf, ← htokens, Row.tokens_map]

end Parsing

end Parsing

end Wireframe
