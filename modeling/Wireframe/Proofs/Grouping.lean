import Wireframe.Proofs.Row

/-!
# Greedy grouping

The same rows can be grouped in several ways, but what may follow what depends on the rows alone: a
row needs to be *placed* outside of pages, in a page or in a block. Rows that are placed can be
grouped greedily, from the left: what belongs to the first row is taken off, and then the others are
grouped.

* `Scene.Reads.isPlaced`: the rows of a scene are placed.
* `exists_greedy`: placed rows have a greedy grouping.
* `Scene.Reads.exists_greedy`: a scene can be regrouped greedily.
-/

namespace Wireframe

/-- Where a row stands. -/
inductive Place
  | outside
  | page
  | block
  deriving DecidableEq

namespace Row

/-- The place after a row, if the row can stand at the given place. An alignment ends the block
    before it. -/
def place? : Place → Row → Option Place
  | place, blank _ => some place
  | _, page .. => some .page
  | .outside, _ => none
  | _, block .. => some .block
  | _, alignment _ => some .page
  | .block, _ => some .block
  | .page, _ => none

/-- The place after some rows, if they can stand at the given place. -/
def placeAfter? (place : Place) (rows : List Row) : Option Place :=
  rows.foldlM place? place

theorem placeAfter?_cons (place : Place) (r : Row) (rows : List Row) :
    placeAfter? place (r :: rows) = (r.place? place).bind (placeAfter? · rows) :=
  List.foldlM_cons ..

theorem placeAfter?_append (place : Place) (rows rows' : List Row) :
    placeAfter? place (rows ++ rows') = (placeAfter? place rows).bind (placeAfter? · rows') :=
  List.foldlM_append ..

/-- Whether a row stands in a block, after its first line. -/
def isBody (r : Row) : Bool :=
  r.isDirection || r.isEntry

/-- In a block, the rows of its body stay in the block. -/
theorem placeAfter?_body {rows : List Row} (h : ∀ r ∈ rows, r.isBody) :
    placeAfter? .block rows = some .block := by
  induction rows with
  | nil => rfl
  | cons r rows ih =>
    obtain ⟨hr, hrows⟩ := List.forall_mem_cons.1 h
    rw [placeAfter?_cons, ← ih hrows]
    cases r <;> first | rfl | exact Bool.noConfusion hr

end Row

/-! ## The rows of a scene are placed -/

section Placed

variable {greedy : Prop} {rows : List Row}

theorem ElementGroup.Reads.isBody {g : ElementGroup} (h : g.Reads greedy rows) :
    ∀ r ∈ rows, r.isBody := by
  obtain ⟨rest, h, rfl⟩ := h
  have hrest : ∀ r ∈ rest, r.isBody := h.forall_mem (fun _ => rfl) fun e r he row hrow =>
    Bool.or_eq_true _ _ ▸ .inr (e.rows_isEntry row (he ▸ hrow))
  intro r hr
  rcases List.mem_append.1 hr with hr | hr
  · obtain ⟨d, -, rfl⟩ := List.mem_map.1 hr
    rfl
  · exact hrest r hr

/-- A block can stand wherever a page has begun. -/
theorem Block.Reads.placeAfter? {b : Block} (h : b.Reads greedy rows) {place : Place}
    (hplace : place ≠ .outside) : Row.placeAfter? place rows = some .block := by
  obtain ⟨rest, h, rfl⟩ := h
  have hrest : Row.placeAfter? .block rest = some .block :=
    Row.placeAfter?_body (h.forall_mem fun _ _ hg => hg.1.isBody)
  rw [Row.placeAfter?_cons]
  cases place with
  | outside => exact absurd rfl hplace
  | page => exact hrest
  | block => exact hrest

/-- Rows that can stand at every place with a property, and then keep to such places. -/
def StayAt (p : Place → Prop) (rows : List Row) : Prop :=
  ∀ place, p place → ∃ after, p after ∧ Row.placeAfter? place rows = some after

namespace StayAt

variable {p : Place → Prop} {rows rows' : List Row}

theorem nil : StayAt p [] := fun place hplace => ⟨place, hplace, rfl⟩

theorem blank (t : Token) : StayAt p [.blank t] := fun place hplace => ⟨place, hplace, rfl⟩

theorem append (h : StayAt p rows) (h' : StayAt p rows') : StayAt p (rows ++ rows') := by
  intro place hplace
  obtain ⟨between, hbetween, hrows⟩ := h place hplace
  obtain ⟨after, hafter, hrows'⟩ := h' between hbetween
  exact ⟨after, hafter, by rw [Row.placeAfter?_append, hrows]; exact hrows'⟩

end StayAt

theorem RowsOf.stayAt {α : Type} {P F : α → List Row → Prop} {p : Place → Prop} {xs : List α}
    (h : RowsOf P F xs rows) (hP : ∀ x r, P x r → StayAt p r) : StayAt p rows := by
  induction h with
  | nil => exact .nil
  | cons hx _ _ ih => exact (hP _ _ hx).append ih

theorem RowsOfLines.stayAt {α : Type} {P F : α → List Row → Prop} {p : Place → Prop}
    {members : List α} {blanks : List Token} (h : RowsOfLines P F members blanks rows)
    (hP : ∀ x r, P x r → StayAt p r) : StayAt p rows := by
  obtain ⟨lines, -, -, h⟩ := h
  refine h.stayAt fun line r hr => ?_
  cases line with
  | blank t => exact (show r = [.blank t] from hr) ▸ .blank t
  | content x => exact hP x r hr

theorem BlockGroup.Reads.stayAt {g : BlockGroup} (h : g.Reads greedy rows) :
    StayAt (· ≠ .outside) rows := by
  obtain ⟨rest, h, rfl⟩ := h
  refine .append ?_ (h.stayAt fun b r hb place hplace => ⟨.block, by decide, hb.placeAfter? hplace⟩)
  cases g.alignment with
  | none => exact .nil
  | some a =>
    refine fun place hplace => ⟨.page, by decide, ?_⟩
    cases place with
    | outside => exact absurd rfl hplace
    | page => rfl
    | block => rfl

/-- A page can stand anywhere. -/
theorem Page.Reads.stayAt {p : Page} (h : p.Reads greedy rows) : StayAt (fun _ => True) rows := by
  obtain ⟨rest, h, rfl⟩ := h
  intro place _
  obtain ⟨after, -, hafter⟩ := RowsOf.stayAt h (fun g r hg => hg.1.stayAt) .page (by decide)
  refine ⟨after, trivial, ?_⟩
  rw [Row.placeAfter?_cons]
  cases place <;> exact hafter

theorem Scene.Reads.isPlaced {s : Scene} (h : s.Reads greedy rows) :
    (Row.placeAfter? .outside rows).isSome := by
  obtain ⟨after, -, hafter⟩ := RowsOfLines.stayAt h (fun p r hp => hp.stayAt) .outside trivial
  exact hafter ▸ rfl

end Placed

/-! ## Placed rows have a greedy grouping -/

/-- Rows are those of members, if those of a first member can be taken off as long as there are
    any. -/
theorem RowsOf.exists_of {α : Type} {P F : α → List Row → Prop} {p : List Row → Prop}
    (step : ∀ r rest, p (r :: rest) →
      ∃ x own rest', rest = own ++ rest' ∧ P x (r :: own) ∧ F x rest' ∧ p rest')
    {rows : List Row} (h : p rows) : ∃ xs, RowsOf P F xs rows := by
  induction hn : rows.length using Nat.strongRecOn generalizing rows with
  | ind n ih =>
    cases rows with
    | nil => exact ⟨[], .nil⟩
    | cons r rest =>
      obtain ⟨x, own, rest', rfl, hP, hF, hp⟩ := step r rest h
      have hlt : rest'.length < n := by
        rw [← hn, List.length_cons, List.length_append]
        omega
      obtain ⟨xs, hxs⟩ := ih _ hlt hp rfl
      exact ⟨x :: xs, .cons hP hF hxs⟩

theorem RowsOfLines.exists_of {α : Type} {P F : α → List Row → Prop} {p : List Row → Prop}
    (blank : ∀ t rest, p (.blank t :: rest) → p rest)
    (step : ∀ r rest, (∀ t, r ≠ .blank t) → p (r :: rest) →
      ∃ x own rest', rest = own ++ rest' ∧ P x (r :: own) ∧ F x rest' ∧ p rest')
    {rows : List Row} (h : p rows) : ∃ members blanks, RowsOfLines P F members blanks rows := by
  have hlines : ∃ lines, RowsOf (Line.Reads P) (Line.Allows F) lines rows := by
    refine RowsOf.exists_of (fun r rest hp => ?_) h
    by_cases hblank : ∃ t, r = .blank t
    · obtain ⟨t, rfl⟩ := hblank
      exact ⟨.blank t, [], rest, rfl, rfl, trivial, blank t rest hp⟩
    · obtain ⟨x, hx⟩ := step r rest (fun t ht => hblank ⟨t, ht⟩) hp
      exact ⟨.content x, hx⟩
  obtain ⟨lines, hlines⟩ := hlines
  exact ⟨_, _, lines, rfl, rfl, hlines⟩

/-- Rows begin with those that have a property, as many as there are. -/
theorem exists_span (p : Row → Bool) (rows : List Row) : ∃ own rest, rows = own ++ rest ∧
    (∀ r ∈ own, p r = true) ∧ ∀ r ∈ rest.head?, p r = false := by
  refine ⟨rows.takeWhile p, rows.dropWhile p, List.takeWhile_append_dropWhile.symm,
    fun r hr => List.all_eq_true.1 List.all_takeWhile r hr, fun r hr => ?_⟩
  have := List.head?_dropWhile_not p rows
  rwa [Option.mem_def.1 hr] at this

section Greedy

variable {rows : List Row}

theorem exists_map_item (h : ∀ r ∈ rows, r.isItem) :
    ∃ items : List Item, rows = items.map .item := by
  induction rows with
  | nil => exact ⟨[], rfl⟩
  | cons r rows ih =>
    obtain ⟨hr, hrows⟩ := List.forall_mem_cons.1 h
    obtain ⟨items, rfl⟩ := ih hrows
    cases r with
    | item i => exact ⟨i :: items, rfl⟩
    | _ => exact Bool.noConfusion hr

/-- Entries and blank lines can be grouped: a list takes the items after it. -/
theorem exists_entries (h : ∀ r ∈ rows, r.isEntry) : ∃ entries blanks,
    RowsOfLines (fun e r => r = Element.rows e) (Element.Allows True) entries blanks rows := by
  refine RowsOfLines.exists_of (p := fun rows => ∀ r ∈ rows, r.isEntry)
    (fun _ _ h r hr => h r (List.mem_cons_of_mem _ hr)) (fun r rest hr h => ?_) h
  cases r with
  | item i =>
    exact ⟨.item i, [], rest, rfl, rfl, trivial,
      fun row hrow => h row (List.mem_cons_of_mem _ hrow)⟩
  | list k title headerEnd c e =>
    obtain ⟨own, rest', rfl, hown, hrest⟩ := exists_span Row.isItem rest
    obtain ⟨items, rfl⟩ := exists_map_item hown
    exact ⟨.list ⟨k, title, headerEnd, c, e, items⟩, _, rest', rfl, rfl, fun _ => hrest,
      fun row hrow => h row (List.mem_cons_of_mem _ (List.mem_append_right _ hrow))⟩
  | blank t => exact absurd rfl (hr t)
  | _ => exact Bool.noConfusion (h _ List.mem_cons_self)

/-- The rows of the body of a block can be grouped: a direction takes the entries after it. -/
theorem exists_elementGroups (h : ∀ r ∈ rows, r.isBody) :
    ∃ groups, Block.ReadsGroups True groups rows := by
  refine RowsOf.exists_of (p := fun rows => ∀ r ∈ rows, r.isBody) (fun r rest h => ?_) h
  obtain ⟨own, rest', rfl, hown, hrest⟩ := exists_span Row.isEntry rest
  obtain ⟨hr, hbody⟩ := List.forall_mem_cons.1 h
  have hbody' : ∀ row ∈ rest', row.isBody :=
    fun row hrow => hbody row (List.mem_append_right _ hrow)
  have hfollow : ∀ row ∈ rest'.head?, row.isDirection := fun row hrow => by
    simpa [Row.isBody, hrest row hrow] using hbody' row (List.mem_of_mem_head? hrow)
  by_cases hentry : r.isEntry
  · obtain ⟨entries, blanks, h⟩ := exists_entries (List.forall_mem_cons.2 ⟨hentry, hown⟩)
    exact ⟨⟨none, entries, blanks⟩, own, rest', rfl, ⟨⟨_, h, rfl⟩, List.cons_ne_nil _ _⟩,
      fun _ => hfollow, hbody'⟩
  · have hdir : r.isDirection := by simpa [Row.isBody, hentry] using hr
    cases r with
    | direction d =>
      obtain ⟨entries, blanks, h⟩ := exists_entries hown
      exact ⟨⟨some d, entries, blanks⟩, own, rest', rfl, ⟨⟨own, h, rfl⟩, List.cons_ne_nil _ _⟩,
        fun _ => hfollow, hbody'⟩
    | _ => exact Bool.noConfusion hdir

/-- Rows that can stand one after the other can stand apart. -/
theorem isSome_placeAfter?_append (place : Place) (rows rows' : List Row)
    (h : (Row.placeAfter? place (rows ++ rows')).isSome) :
    ∃ after, Row.placeAfter? place rows = some after ∧ (Row.placeAfter? after rows').isSome := by
  rw [Row.placeAfter?_append] at h
  cases hrows : Row.placeAfter? place rows with
  | none => rw [hrows] at h; exact Bool.noConfusion h
  | some after => exact ⟨after, rfl, by rwa [hrows] at h⟩

/-- Rows can stand at either of two places that are alike to the first of them. -/
theorem isSome_placeAfter?_congr (place place' : Place)
    (h : ∀ r ∈ rows.head?, r.place? place = r.place? place') :
    (Row.placeAfter? place rows).isSome = (Row.placeAfter? place' rows).isSome := by
  cases rows with
  | nil => rfl
  | cons r rows => rw [Row.placeAfter?_cons, Row.placeAfter?_cons, h r rfl]

/-- Blocks and blank lines can be grouped: a block takes its body. -/
theorem exists_blocks (h : (Row.placeAfter? .page rows).isSome)
    (hrows : ∀ r ∈ rows, r.isAlignment = false ∧ r.isPage = false) : ∃ blocks blanks,
      RowsOfLines (Block.Reads True) (fun _ rows => True → ∀ r ∈ rows.head?, r.isBlock)
        blocks blanks rows := by
  refine RowsOfLines.exists_of (p := fun rows => (Row.placeAfter? .page rows).isSome ∧
    ∀ r ∈ rows, r.isAlignment = false ∧ r.isPage = false) ?_ (fun r rest hr h => ?_) ⟨h, hrows⟩
  · exact fun t rest h => ⟨h.1, fun r hr => h.2 r (List.mem_cons_of_mem _ hr)⟩
  obtain ⟨hplaced, hinside⟩ := h
  cases r with
  | block k title e =>
    obtain ⟨own, rest', rfl, hown, hrest⟩ := exists_span Row.isBody rest
    obtain ⟨groups, hgroups⟩ := exists_elementGroups hown
    have hinside' : ∀ row ∈ rest', row.isAlignment = false ∧ row.isPage = false := fun row hrow =>
      hinside row (List.mem_cons_of_mem _ (List.mem_append_right _ hrow))
    have hfollow : ∀ row ∈ rest'.head?, row.isBlock := by
      intro row hrow
      have hbody := hrest row hrow
      have hrow := hinside' row (List.mem_of_mem_head? hrow)
      cases row <;> simp_all [Row.isBody, Row.isDirection, Row.isEntry, Row.isAlignment, Row.isPage,
        Row.isBlock]
    refine ⟨⟨k, title, e, groups⟩, own, rest', rfl, ⟨own, hgroups, rfl⟩, fun _ => hfollow, ?_,
      hinside'⟩
    -- what follows is a block, for which a page is as good a place as a block
    obtain ⟨after, hafter, h⟩ :=
      isSome_placeAfter?_append .page (.block k title e :: own) rest' hplaced
    obtain rfl : .block = after := Option.some.inj ((Row.placeAfter?_body hown).symm.trans hafter)
    rwa [isSome_placeAfter?_congr .page .block fun row hrow => ?_]
    cases row with
    | block => rfl
    | _ => exact Bool.noConfusion (hfollow _ hrow)
  | blank t => exact absurd rfl (hr t)
  | page | alignment =>
    exact absurd (hinside _ List.mem_cons_self) (by simp [Row.isAlignment, Row.isPage])
  | _ => exact Bool.noConfusion hplaced

theorem place?_ne_outside {place after : Place} {r : Row} (hplace : place ≠ .outside)
    (h : r.place? place = some after) : after ≠ .outside := by
  cases place <;> cases r <;> simp_all [Row.place?] <;> simp [← h]

theorem placeAfter?_ne_outside {place after : Place} (hplace : place ≠ .outside)
    (h : Row.placeAfter? place rows = some after) : after ≠ .outside := by
  induction rows generalizing place with
  | nil => exact Option.some.inj h ▸ hplace
  | cons r rows ih =>
    rw [Row.placeAfter?_cons] at h
    obtain ⟨between, hr, h⟩ := Option.bind_eq_some_iff.1 h
    exact ih (place?_ne_outside hplace hr) h

/-- The rows of a page can be grouped: an alignment takes the blocks and blank lines after it. -/
theorem exists_blockGroups (h : (Row.placeAfter? .page rows).isSome)
    (hrows : ∀ r ∈ rows, r.isPage = false) : ∃ groups, Page.ReadsGroups True groups rows := by
  refine RowsOf.exists_of (p := fun rows => (Row.placeAfter? .page rows).isSome ∧
    ∀ r ∈ rows, r.isPage = false) (fun r rest h => ?_) ⟨h, hrows⟩
  obtain ⟨hplaced, hinside⟩ := h
  obtain ⟨own, rest', rfl, hown, hrest⟩ := exists_span (!·.isAlignment) rest
  obtain ⟨after, hafter, hplaced'⟩ := isSome_placeAfter?_append .page (r :: own) rest' hplaced
  have hinside' : ∀ row ∈ rest', row.isPage = false := fun row hrow =>
    hinside row (List.mem_cons_of_mem _ (List.mem_append_right _ hrow))
  have hfollow : ∀ row ∈ rest'.head?, row.isAlignment := fun row hrow => by
    simpa using hrest row hrow
  -- what follows is an alignment, for which one place in a page is as good as another
  have hgood : (Row.placeAfter? .page rest').isSome := by
    have hne := placeAfter?_ne_outside (by decide) hafter
    rwa [isSome_placeAfter?_congr .page after fun row hrow => ?_]
    cases row with
    | alignment =>
      cases after with
      | outside => exact absurd rfl hne
      | page | block => rfl
    | _ => exact Bool.noConfusion (hfollow _ hrow)
  have hblocks : ∀ row ∈ own, row.isAlignment = false ∧ row.isPage = false := fun row hrow =>
    ⟨by simpa using hown row hrow,
      hinside row (List.mem_cons_of_mem _ (List.mem_append_left _ hrow))⟩
  by_cases hr : r.isAlignment
  · cases r with
    | alignment a =>
      have hown : (Row.placeAfter? .page own).isSome := by
        rw [show Row.placeAfter? .page own = some after from hafter]
        rfl
      obtain ⟨blocks, blanks, h⟩ := exists_blocks hown hblocks
      exact ⟨⟨some a, blocks, blanks⟩, own, rest', rfl, ⟨⟨own, h, rfl⟩, List.cons_ne_nil _ _⟩,
        fun _ => hfollow, hgood, hinside'⟩
    | _ => exact Bool.noConfusion hr
  · obtain ⟨blocks, blanks, h⟩ := exists_blocks (hafter ▸ rfl)
      (List.forall_mem_cons.2 ⟨⟨Bool.not_eq_true _ ▸ hr, hinside r List.mem_cons_self⟩, hblocks⟩)
    exact ⟨⟨none, blocks, blanks⟩, own, rest', rfl, ⟨⟨_, h, rfl⟩, List.cons_ne_nil _ _⟩,
      fun _ => hfollow, hgood, hinside'⟩

/-- Placed rows have a greedy grouping. -/
theorem exists_greedy (h : (Row.placeAfter? .outside rows).isSome) :
    ∃ s : Scene, s.Reads True rows ∧ s.comments = [] := by
  have hlines : ∃ pages blanks, RowsOfLines (Page.Reads True)
      (fun _ rows => True → ∀ r ∈ rows.head?, r.isPage) pages blanks rows := by
    refine RowsOfLines.exists_of (p := fun rows => (Row.placeAfter? .outside rows).isSome)
      (fun _ _ h => h) (fun r rest hr hplaced => ?_) h
    cases r with
    | page device k title e =>
      obtain ⟨own, rest', rfl, hown, hrest⟩ := exists_span (!·.isPage) rest
      obtain ⟨after, hafter, hplaced'⟩ :=
        isSome_placeAfter?_append .outside (.page device k title e :: own) rest' hplaced
      have hpage : (Row.placeAfter? .page own).isSome := by
        rw [show Row.placeAfter? .page own = some after from hafter]
        rfl
      obtain ⟨groups, hgroups⟩ := exists_blockGroups hpage fun row hrow => by
        simpa using hown row hrow
      have hfollow : ∀ row ∈ rest'.head?, row.isPage :=
        fun row hrow => by simpa using hrest row hrow
      refine ⟨⟨device, k, title, e, groups⟩, own, rest', rfl, ⟨own, hgroups, rfl⟩, fun _ => hfollow,
        ?_⟩
      -- what follows is a page, for which any place is good
      rwa [isSome_placeAfter?_congr .outside after fun row hrow => ?_]
      cases row with
      | page => cases after <;> rfl
      | _ => exact Bool.noConfusion (hfollow _ hrow)
    | blank t => exact absurd rfl (hr t)
    | _ => exact Bool.noConfusion hplaced
  obtain ⟨pages, blanks, hlines⟩ := hlines
  exact ⟨⟨pages, blanks, []⟩, hlines, rfl⟩

/-- The rows of a scene have a greedy grouping. -/
theorem Scene.Reads.exists_greedy {greedy : Prop} {s : Scene} (h : s.Reads greedy rows) :
    ∃ s' : Scene, s'.Reads True rows ∧ s'.comments = [] :=
  Wireframe.exists_greedy h.isPlaced

end Greedy

end Wireframe
