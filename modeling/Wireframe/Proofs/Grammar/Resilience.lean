import Wireframe.Proofs.Row.Lines
import Wireframe.Proofs.Scene.Items
import Wireframe.Proofs.Scene.Renaming

/-!
# Bad lines have no effect

Bad lines can stand anywhere between the lines of a scene: as long as there are fewer than the limit
allows, each is reported once, and what comes out is the scene without them
(`Parsing.ofTokens_littered`). Only a list must not be parted. A bad line before one of its items
would end the list, and the head of a list is broken by one before the words that tell what it
consists of, which may stand on a line of their own.

* `littered`: tokens with bad lines in the gaps between them; `BetweenLines`: only such gaps are
  used as stand between two rows. So every bad line comes after a row, or before the first one
  (`BetweenLines.littered_tokens`).
* `Parsing.listedPlaces`: the places of the items that belong to a list, read off the scene that is
  parsed from the same tokens with their places as offsets. In terms of rows these are the items
  that come right after the head of a list, or after other such items (`Scene.Reads.listed_eq`).
-/

namespace Wireframe

/-! ## Bad lines between lines -/

/-- Tokens with bad lines among them: those of the `i`-th gap stand before the `i`-th token, and
    those of the last gap after all tokens. -/
def littered (gaps : Nat → List BadLine) : List Token → List Token
  | [] => (gaps 0).flatMap BadLine.tokens
  | t :: rest => (gaps 0).flatMap BadLine.tokens ++ t :: littered (fun i => gaps (i + 1)) rest

/-- All bad lines among tokens, in order. -/
def litterOf (gaps : Nat → List BadLine) (tokens : List Token) : List BadLine :=
  (List.range (tokens.length + 1)).flatMap gaps

/-- The bad lines stand where a line begins, but not within the head of a list. -/
def BetweenLines (gaps : Nat → List BadLine) (tokens : List Token) : Prop :=
  ∀ i ≤ tokens.length, gaps i ≠ [] →
    (i = 0 ∨ tokens[i - 1]?.map Token.kind = some .lineEnd) ∧
      tokens[i]?.map Token.kind ≠ some (.keyword .consistsOf)

section Littered

variable {gaps : Nat → List BadLine} {tokens more : List Token}

/-- No bad lines stand before the first tokens. -/
theorem littered_append (h : ∀ i < tokens.length, gaps i = []) (more : List Token) :
    littered gaps (tokens ++ more) =
      tokens ++ littered (fun i => gaps (i + tokens.length)) more := by
  induction tokens generalizing gaps with
  | nil => rfl
  | cons t tokens ih =>
    have htokens := @ih (fun i => gaps (i + 1)) fun i hi => h (i + 1) (Nat.succ_lt_succ hi)
    rw [List.cons_append, littered, h 0 (Nat.succ_pos _), htokens]
    rfl

theorem BetweenLines.drop (h : BetweenLines gaps (tokens ++ more)) :
    BetweenLines (fun i => gaps (i + tokens.length)) more := by
  intro i hi hne
  obtain ⟨hbegins, hconsists⟩ := h (i + tokens.length) (by rw [List.length_append]; omega) hne
  refine ⟨?_, by
    rwa [List.getElem?_append_right (Nat.le_add_left _ _), Nat.add_sub_cancel] at hconsists⟩
  rcases Nat.eq_zero_or_pos i with hi | hi
  · exact .inl hi
  · refine .inr ?_
    rw [List.getElem?_append_right (by omega),
      show i + tokens.length - 1 - tokens.length = i - 1 by omega] at hbegins
    exact hbegins.resolve_left (by omega)

/-- There is no bad line within a row. -/
theorem BetweenLines.eq_nil {t : Token} {words : List Token}
    (h : BetweenLines gaps (t :: words ++ more))
    (hline : OnOneLine (t :: words)) : ∀ i < words.length, gaps (i + 1) = [] := by
  intro i hi
  by_contra hne
  obtain ⟨hbegins, hconsists⟩ := h (i + 1) (by
    rw [List.length_append, List.length_cons]
    omega) hne
  -- the token before the gap would be a line end, and the one after it no `consistsOf`
  have hlt : i + 1 < (t :: words).length := Nat.succ_lt_succ hi
  rw [Nat.add_sub_cancel, List.getElem?_append_left (Nat.lt_of_succ_lt hlt),
    List.getElem?_eq_getElem (Nat.lt_of_succ_lt hlt)] at hbegins
  rw [List.getElem?_append_left hlt, List.getElem?_eq_getElem hlt] at hconsists
  have hend := Option.some.inj (hbegins.resolve_left (Nat.succ_ne_zero i))
  exact hconsists (congrArg some (List.isChain_iff_getElem.1 hline i hlt hend))

/-- Rows with the bad lines after each of them. -/
def LitteredRow.ofGaps (gaps : Nat → List BadLine) : List Row → List LitteredRow
  | [] => []
  | r :: rows => ⟨r, gaps r.leaves.length⟩ :: ofGaps (fun i => gaps (i + r.leaves.length)) rows

theorem LitteredRow.map_row_ofGaps (gaps : Nat → List BadLine) (rows : List Row) :
    (ofGaps gaps rows).map row = rows := by
  induction rows generalizing gaps with
  | nil => rfl
  | cons r rows ih => exact congrArg (r :: ·) (ih _)

/-- The bad lines before a row and after it. -/
theorem BetweenLines.littered_append {t : Token} {words : List Token}
    (h : BetweenLines gaps (t :: words ++ more)) (hline : OnOneLine (t :: words)) :
    littered gaps (t :: words ++ more) = (gaps 0).flatMap BadLine.tokens ++
      (t :: words ++ littered (fun i => gaps (i + (t :: words).length)) more) := by
  rw [List.cons_append, littered, Wireframe.littered_append (h.eq_nil hline)]
  rfl

theorem BetweenLines.litterOf_append {t : Token} {words : List Token}
    (h : BetweenLines gaps (t :: words ++ more)) (hline : OnOneLine (t :: words)) :
    litterOf gaps (t :: words ++ more) =
      gaps 0 ++ litterOf (fun i => gaps (i + (t :: words).length)) more := by
  have hfirst : (List.range (t :: words).length).flatMap gaps = gaps 0 := by
    have hnil : (List.range words.length).flatMap (fun i => gaps (i + 1)) = [] :=
      List.flatMap_eq_nil_iff.2 fun i hi => h.eq_nil hline i (List.mem_range.1 hi)
    rw [List.length_cons, List.range_succ_eq_map, List.flatMap_cons, List.flatMap_map]
    exact (congrArg (gaps 0 ++ ·) hnil).trans (List.append_nil _)
  rw [litterOf, List.length_append, Nat.add_assoc, List.range_add, List.flatMap_append, hfirst,
    List.flatMap_map]
  simp only [Nat.add_comm (t :: words).length]
  rfl

/-- Bad lines between lines stand before the first row and after each row. -/
theorem BetweenLines.littered_tokens {rows : List Row} (hwell : ∀ r ∈ rows, r.IsWellFormed)
    (h : BetweenLines gaps (Row.tokens rows)) :
    littered gaps (Row.tokens rows) =
        (gaps 0).flatMap BadLine.tokens ++ LitteredRow.tokens (LitteredRow.ofGaps gaps rows) ∧
      litterOf gaps (Row.tokens rows) =
        gaps 0 ++ LitteredRow.litter (LitteredRow.ofGaps gaps rows) := by
  induction rows generalizing gaps with
  | nil => exact ⟨(List.append_nil _).symm, by simp [litterOf, LitteredRow.ofGaps]⟩
  | cons r rows ih =>
    obtain ⟨hr, hrows⟩ := List.forall_mem_cons.1 hwell
    obtain ⟨t, words, hleaves⟩ := List.exists_cons_of_ne_nil r.leaves_ne_nil
    have hline := hr.onOneLine
    obtain ⟨htokens, hlitter⟩ := ih hrows h.drop
    rw [Row.tokens_cons, hleaves] at h
    rw [hleaves] at hline htokens hlitter
    rw [LitteredRow.ofGaps.eq_2, LitteredRow.tokens_cons, LitteredRow.litter_cons, Row.tokens_cons,
      hleaves]
    dsimp only
    rw [h.littered_append hline, h.litterOf_append hline, htokens, hlitter, Nat.zero_add]
    exact ⟨by simp only [List.cons_append], rfl⟩

end Littered

/-! ## The items of lists -/

/-- The items of the lists in a group. -/
def ElementGroup.listedItems (g : ElementGroup) : List Item :=
  g.lists.flatMap ItemList.items

/-- The items of the lists in a block. -/
def Block.listedItems (b : Block) : List Item :=
  b.groups.flatMap ElementGroup.listedItems

/-- The items of the lists in a group of blocks. -/
def BlockGroup.listedItems (g : BlockGroup) : List Item :=
  g.blocks.flatMap Block.listedItems

/-- The items of the lists on a page. -/
def Page.listedItems (p : Page) : List Item :=
  p.groups.flatMap BlockGroup.listedItems

/-- The items that belong to a list. -/
def Scene.listedItems (s : Scene) : List Item :=
  s.pages.flatMap Page.listedItems

namespace Row

/-- The items that come right after the head of a list or after other such items. The flag says
    whether an item at the beginning of the rows is one of these. -/
def listed : Bool → List Row → List Item
  | _, [] => []
  | inList, r :: rows =>
    (if inList then r.item?.toList else []) ++ listed (r.inListAfter inList) rows

variable {rows rows' : List Row} {items items' : List Item}

theorem listed_of_head (h : ∀ r ∈ rows.head?, r.isItem = false) (inList : Bool) :
    listed inList rows = listed false rows := by
  cases rows with
  | nil => rfl
  | cons r rows =>
    have hr : r.isItem = false := h r rfl
    cases r with
    | item i => exact Bool.noConfusion hr
    | _ => cases inList <;> rfl

/-- Wherever the rows stand before something that is no item, these items are listed in them. -/
def Lists (items : List Item) (rows : List Row) : Prop :=
  ∀ more : List Row, (∀ r ∈ more.head?, r.isItem = false) →
    listed false (rows ++ more) = items ++ listed false more

/-- What begins with a row of a sort of which items are not begins with no item. -/
theorem head?_isItem {p : Row → Bool} (hp : ∀ i, p (.item i) = false)
    (h : True → ∀ r ∈ rows.head?, p r = true) : ∀ r ∈ rows.head?, r.isItem = false := by
  intro r hr
  cases r with
  | item i => exact absurd (h trivial _ hr) (by rw [hp]; decide)
  | _ => rfl

namespace Lists

theorem nil : Lists [] [] := fun _ _ => rfl

theorem cons {r : Row} (hr : r.isList = false) (h : Lists items rows) :
    Lists items (r :: rows) := by
  intro more hmore
  rw [List.cons_append, listed, inListAfter, hr, Bool.false_and, Bool.or_false]
  exact h more hmore

theorem append (h : Lists items rows) (hrows : ∀ r ∈ rows'.head?, r.isItem = false)
    (h' : Lists items' rows') : Lists (items ++ items') (rows ++ rows') := by
  intro more hmore
  rw [List.append_assoc, h, h' more hmore, List.append_assoc]
  cases rows' with
  | nil => exact hmore
  | cons r rows' => exact hrows

variable {α : Type} {P F : α → List Row → Prop} {f : α → List Item}

theorem of_rowsOf (hP : ∀ x r, P x r → Lists (f x) r)
    (hF : ∀ x rows, F x rows → ∀ r ∈ rows.head?, r.isItem = false) {xs : List α}
    (h : RowsOf P F xs rows) : Lists (xs.flatMap f) rows := by
  induction h with
  | nil => exact .nil
  | cons hx hrest _ ih => exact (hP _ _ hx).append (hF _ _ hrest) ih

theorem of_rowsOfLines (hP : ∀ x r, P x r → Lists (f x) r)
    (hF : ∀ x rows, F x rows → ∀ r ∈ rows.head?, r.isItem = false) {members : List α}
    {blanks : List Token} (h : RowsOfLines P F members blanks rows) :
    Lists (members.flatMap f) rows := by
  refine h.induction (motive := fun members _ rows => Lists (members.flatMap f) rows) .nil ?_ ?_
  · exact fun t _ _ _ _ ih => ih.cons rfl
  · exact fun x r _ _ _ hx hrest _ ih => (hP x r hx).append (hF _ _ hrest) ih

end Lists

end Row

section Lists

open Row (Lists listed)

variable {rows : List Row}

theorem ItemList.listed_rows (l : ItemList) (h : ∀ r ∈ rows.head?, r.isItem = false) :
    listed false (l.rows ++ rows) = l.items ++ listed false rows := by
  have hitems : ∀ items : List Item, listed true (items.map Row.item ++ rows) =
      items ++ listed false rows := by
    intro items
    induction items with
    | nil => exact Row.listed_of_head h true
    | cons i items ih => exact congrArg (i :: ·) ih
  exact hitems l.items

theorem ElementGroup.Reads.lists {g : ElementGroup} (h : g.Reads True rows) :
    Lists g.listedItems rows := by
  obtain ⟨rest, hlines, rfl⟩ := h
  have hentries : Lists g.listedItems rest := by
    refine hlines.induction (motive := fun entries _ rows =>
      Lists ((entries.filterMap Element.list?).flatMap ItemList.items) rows) .nil ?_ ?_
    · exact fun t _ _ _ _ ih => ih.cons rfl
    · intro e r entries _ rows he hallows _ ih
      subst he
      cases e with
      | item i => exact ih.cons rfl
      | list l =>
        intro more hmore
        rw [List.append_assoc, Element.rows, l.listed_rows, ih more hmore, ← List.append_assoc]
        · rfl
        · cases rows with
          | nil => exact hmore
          | cons r rows => exact hallows trivial
  cases g.direction with
  | none => exact hentries
  | some d => exact hentries.cons rfl

theorem Block.Reads.lists {b : Block} (h : b.Reads True rows) : Lists b.listedItems rows := by
  obtain ⟨rest, hgroups, rfl⟩ := h
  refine .cons rfl
    (.of_rowsOf (fun _ _ hg => hg.1.lists) (fun _ _ => Row.head?_isItem fun _ => rfl) hgroups)

theorem BlockGroup.Reads.lists {g : BlockGroup} (h : g.Reads True rows) :
    Lists g.listedItems rows := by
  obtain ⟨rest, hlines, rfl⟩ := h
  have hblocks : Lists g.listedItems rest := by
    refine .of_rowsOfLines (fun _ _ hb => hb.lists)
      (fun _ _ => Row.head?_isItem fun _ => rfl) hlines
  cases g.alignment with
  | none => exact hblocks
  | some a => exact hblocks.cons rfl

theorem Page.Reads.lists {p : Page} (h : p.Reads True rows) : Lists p.listedItems rows := by
  obtain ⟨rest, hgroups, rfl⟩ := h
  refine .cons rfl
    (.of_rowsOf (fun _ _ hg => hg.1.lists) (fun _ _ => Row.head?_isItem fun _ => rfl) hgroups)

/-- In a greedy grouping, the items of lists are those that come right after the head of a list
    or after such an item. -/
theorem Scene.Reads.listed_eq {s : Scene} (h : s.Reads True rows) :
    listed false rows = s.listedItems := by
  have hlists : Lists s.listedItems rows := by
    refine .of_rowsOfLines (fun _ _ hp => hp.lists) (fun _ _ => Row.head?_isItem fun _ => rfl) h
  have hall := hlists [] fun _ hr => absurd hr (Option.not_mem_none _)
  rwa [List.append_nil, listed, List.append_nil] at hall

end Lists

/-! ## Places -/

/-- Tokens that have their places as offsets. A parse does not look at these. -/
def withPlaces (tokens : List Token) : List Token :=
  tokens.mapIdx fun i t => { t with range.span := ⟨i, i + 1⟩ }

/-- A token with its place as offset, with the range that it had. -/
def restored (tokens : List Token) (t : Token) : Token :=
  { t with range := (tokens[t.offset]?.map Token.range).getD t.range }

theorem isRenaming_restored (tokens : List Token) : IsRenaming (restored tokens) :=
  ⟨fun _ => rfl, fun _ => rfl⟩

theorem map_restored_withPlaces (tokens : List Token) :
    (withPlaces tokens).map (restored tokens) = tokens := by
  refine List.ext_getElem (by simp [withPlaces]) fun i _ hi => ?_
  simp [withPlaces, restored, Token.offset, hi]

/-- The offset at which an item starts. -/
def Item.offset? (i : Item) : Option Nat :=
  i.leaves.head?.map Token.offset

section Clear

variable {gaps : Nat → List BadLine} {rows : List Row}

/-- Where no bad lines stand before a listed item, none stand between the rows of a list. The
    offsets are the places of the tokens, from `n` on. -/
theorem LitteredRow.clear_ofGaps {inList : Bool} {n : Nat}
    (hoffset : ∀ i t, (Row.tokens rows)[i]? = some t → t.offset = n + i)
    (hgaps : ∀ i ≤ (Row.tokens rows).length, gaps i ≠ [] →
      n + i ∉ (Row.listed inList rows).filterMap Item.offset?) :
    Clear inList (ofGaps gaps rows) := by
  induction rows generalizing gaps inList n with
  | nil => trivial
  | cons r rows ih =>
    rw [Row.tokens_cons] at hoffset hgaps
    refine ⟨?_, ih (n := n + r.leaves.length) (fun i t ht => ?_) fun i hi hne hmem => ?_⟩
    · -- an item that is next belongs to a list, and the place after the row is its place
      rintro hlist ⟨next, hnext, hitem⟩
      by_contra hne
      cases rows with
      | nil => exact absurd hnext (Option.not_mem_none _)
      | cons q rows =>
        obtain rfl : _ = next := Option.some.inj hnext
        cases q with
        | item i =>
          obtain ⟨t, w, hleaves⟩ := List.exists_cons_of_ne_nil (Row.leaves_ne_nil (.item i))
          have hstart : t.offset = n + r.leaves.length := by
            refine hoffset r.leaves.length t ?_
            rw [List.getElem?_append_right (Nat.le_refl _), Nat.sub_self, Row.tokens_cons, hleaves]
            rfl
          refine hgaps r.leaves.length (by rw [List.length_append]; omega) hne ?_
          rw [Row.listed, hlist, List.filterMap_append]
          refine List.mem_append_right _ (List.mem_filterMap.2 ⟨i, List.mem_cons_self, ?_⟩)
          rw [Item.offset?, show i.leaves = t :: w from hleaves, List.head?_cons, Option.map_some,
            hstart]
        | _ => exact Bool.noConfusion hitem
    · rw [Nat.add_assoc]
      refine hoffset _ t ?_
      rwa [List.getElem?_append_right (Nat.le_add_right _ _), Nat.add_sub_cancel_left]
    · refine hgaps (i + r.leaves.length) (by rw [List.length_append]; omega) hne ?_
      rw [Row.listed, List.filterMap_append]
      refine List.mem_append_right _ ?_
      rwa [Nat.add_comm i, ← Nat.add_assoc]

theorem Row.inListAfter_map (f : Token → Token) (inList : Bool) (r : Row) :
    (r.map f).inListAfter inList = r.inListAfter inList := by
  cases r <;> rfl

/-- Other tokens leave the bad lines where they are. -/
theorem LitteredRow.clear_ofGaps_map {f : Token → Token} {inList : Bool} :
    Clear inList (ofGaps gaps (rows.map (Row.map f))) ↔ Clear inList (ofGaps gaps rows) := by
  induction rows generalizing gaps inList with
  | nil => rfl
  | cons r rows ih =>
    have hhead :
        (∃ next ∈ (ofGaps (fun i => gaps (i + r.leaves.length)) (rows.map (Row.map f))).head?,
        next.row.isItem = true) ↔
        ∃ next ∈ (ofGaps (fun i => gaps (i + r.leaves.length)) rows).head?,
          next.row.isItem = true := by
      cases rows with
      | nil => rfl
      | cons q rows => simp [ofGaps]
    simp only [List.map_cons, ofGaps, Clear, Row.leaves_map, List.length_map, Row.inListAfter_map,
      ih, hhead]

end Clear

/-! ## Parsing among bad lines -/

namespace BadLine

/-- A bad line without blanks and comments. -/
def kept (l : BadLine) : BadLine :=
  { l with
    rest := Parsing.kept l.rest
    rest_ne_lineEnd := fun t ht => l.rest_ne_lineEnd t (List.mem_of_mem_filter ht) }

theorem kept_tokens (l : BadLine) : Parsing.kept l.tokens = l.kept.tokens := by
  have hfirst : l.first.kind.isSkipped = false := by
    have := l.beginsNoLine
    cases h : l.first.kind <;> rw [h] at this <;> first | rfl | exact Bool.noConfusion this
  have hend : l.lineEnd.kind.isSkipped = false := by
    rw [l.lineEnd_kind]
    rfl
  rw [tokens, tokens, Parsing.kept, List.filter_cons_of_pos (by rw [hfirst]; rfl),
    List.filter_append, List.filter_cons_of_pos (by rw [hend]; rfl)]
  rfl

theorem kept_flatMap_tokens (bad : List BadLine) :
    Parsing.kept (bad.flatMap tokens) = (bad.map kept).flatMap tokens := by
  rw [Parsing.kept, List.filter_flatMap, List.flatMap_map]
  exact List.flatMap_congr fun l _ => l.kept_tokens

end BadLine

namespace Parsing

theorem kept_littered (gaps : Nat → List BadLine) {tokens : List Token}
    (h : ∀ t ∈ tokens, t.kind.isSkipped = false) :
    kept (littered gaps tokens) = littered (fun i => (gaps i).map BadLine.kept) tokens := by
  induction tokens generalizing gaps with
  | nil => exact BadLine.kept_flatMap_tokens (gaps 0)
  | cons t tokens ih =>
    obtain ⟨ht, htokens⟩ := List.forall_mem_cons.1 h
    rw [littered, littered, kept_append, BadLine.kept_flatMap_tokens, kept,
      List.filter_cons_of_pos (by rw [ht]; rfl)]
    exact congrArg (_ ++ t :: ·) (ih _ htokens)

/-- The places of the first tokens of the items that belong to a list. -/
def listedPlaces (limit : Nat) (tokens : List Token) : List Nat :=
  (ofTokens limit (withPlaces tokens)).scene.listedItems.filterMap Item.offset?

/-- Tokens without an error are those of rows, of which bad lines do not part any list unless one
    stands before a listed item. -/
theorem exists_clear_rows {limit : Nat} {tokens : List Token}
    (hkept : ∀ t ∈ tokens, t.kind.isSkipped = false) (hnil : (ofTokens limit tokens).errors = []) :
    ∃ rows, (ofTokens limit tokens).scene.Reads True rows ∧
      (ofTokens limit tokens).scene.comments = [] ∧ (∀ r ∈ rows, r.IsWellFormed) ∧
      Row.tokens rows = tokens ∧ ∀ gaps : Nat → List BadLine,
        (∀ i ≤ tokens.length, gaps i ≠ [] → i ∉ listedPlaces limit tokens) →
          LitteredRow.Clear false (LitteredRow.ofGaps gaps rows) := by
  have hf := isRenaming_restored tokens
  have hrestored := map_restored_withPlaces tokens
  have hnil' : (ofTokens limit (withPlaces tokens)).errors = [] := by
    rw [← errors_map_eq_nil_iff hf limit limit, hrestored, hnil]
  obtain ⟨rows, hreads, hcomments, hwell, htokens⟩ := exists_greedy_rows hnil'
  have hkept' : kept (withPlaces tokens) = withPlaces tokens := kept_eq_self fun t ht => by
    have hmem := List.mem_map_of_mem (f := restored tokens) ht
    rw [hrestored] at hmem
    exact hkept (restored tokens t) hmem
  rw [hkept'] at htokens
  -- the rows are those of the tokens with their places, but for these
  have hscene := ofTokens_map hf hnil' limit
  rw [hrestored] at hscene
  rw [hscene]
  refine ⟨rows.map (Row.map (restored tokens)), hreads.map, by rw [Scene.map, hcomments]; rfl,
    List.forall_mem_map.2 fun r hr => (hwell r hr).map hf,
    by rw [Row.tokens_map, htokens, hrestored], fun gaps hgaps => ?_⟩
  refine LitteredRow.clear_ofGaps_map.2 (LitteredRow.clear_ofGaps (n := 0) (fun i t ht => ?_)
    fun i hi hgap => ?_)
  · rw [htokens, withPlaces, List.getElem?_mapIdx] at ht
    obtain ⟨u, -, rfl⟩ := Option.map_eq_some_iff.1 ht
    exact (Nat.zero_add i).symm
  · rw [htokens, withPlaces, List.length_mapIdx] at hi
    rw [hreads.listed_eq, Nat.zero_add]
    exact hgaps i hi hgap

/-- Bad lines between the lines of a scene are skipped without any effect on the scene, as long as
    none stands before an item of a list, and one error for each of them blames the token that it
    begins with. This takes that the limit on errors is not reached. -/
theorem ofTokens_littered (limit : Nat) (tokens : List Token) (gaps : Nat → List BadLine)
    (hkept : ∀ t ∈ tokens, t.kind.isSkipped = false) (hnil : (ofTokens limit tokens).errors = [])
    (hbetween : BetweenLines gaps tokens)
    (hlisted : ∀ i ≤ tokens.length, gaps i ≠ [] → i ∉ listedPlaces limit tokens)
    (hlimit : (litterOf gaps tokens).length < max 1 limit) :
    (ofTokens limit (littered gaps tokens)).scene = (ofTokens limit tokens).scene ∧
      (ofTokens limit (littered gaps tokens)).errors.map ParseError.blame =
        (litterOf gaps tokens).map BadLine.blame := by
  obtain ⟨rows, hreads, hcomments, hwell, htokens, hclear⟩ := exists_clear_rows hkept hnil
  -- blanks and comments on the bad lines do not matter
  let shown (i : Nat) : List BadLine := (gaps i).map BadLine.kept
  have hshown : litterOf shown tokens = (litterOf gaps tokens).map BadLine.kept :=
    List.map_flatMap.symm
  have hne {i : Nat} (h : shown i ≠ []) : gaps i ≠ [] := mt (congrArg (List.map BadLine.kept)) h
  have hbetween' : BetweenLines shown (Row.tokens rows) :=
    htokens.symm ▸ fun i hi hgap => hbetween i hi (hne hgap)
  obtain ⟨hlittered, hlitter⟩ := hbetween'.littered_tokens hwell
  rw [htokens] at hlittered hlitter
  rw [← LitteredRow.map_row_ofGaps shown rows] at hreads hwell
  obtain ⟨es, hes, hrun⟩ := Parse.recovers_scene hreads hcomments hwell
    (hclear shown fun i hi hgap => hlisted i hi (hne hgap)) (shown 0)
    ⟨max 1 limit, finishOf (kept (littered gaps tokens))⟩ ⟨kept (littered gaps tokens), [], []⟩ []
    (by rw [← hlitter, hshown, List.length_map, List.length_nil, Nat.zero_add]; exact hlimit)
    (by rw [kept_littered gaps hkept, List.append_nil]; exact hlittered) .nil
  rw [ofTokens_eq limit (littered gaps tokens), hrun]
  refine ⟨rfl, hes.trans ?_⟩
  rw [← hlitter, hshown, List.map_map]
  rfl

/-- Bad lines after the first line of a page and that of a block, after a list, and at the end. -/
theorem ofTokens_littered_list :
    let token (kind : TokenKind) : Token := ⟨kind, "", .origin⟩
    let tokens := [token (.keyword .page), token .freeText, token .lineEnd, token (.keyword .block),
      token .lineEnd, token (.keyword .list), token .lineEnd, token (.keyword .consistsOf),
      token .lineEnd, token (.keyword .button), token .lineEnd]
    let bad : BadLine :=
      ⟨token .comma, [token (.keyword .button)], token .lineEnd, rfl, by simp [token], rfl⟩
    let gaps (i : Nat) : List BadLine := if i ∈ [3, 5, 11] then [bad] else []
    listedPlaces 9 tokens = [9] ∧ BetweenLines gaps tokens ∧
      (ofTokens 9 (littered gaps tokens)).scene = (ofTokens 9 tokens).scene ∧
      (ofTokens 9 (littered gaps tokens)).errors.map ParseError.blame =
        [bad.blame, bad.blame, bad.blame] := by
  intro token tokens bad gaps
  have hplaces : listedPlaces 9 tokens = [9] := by decide +kernel
  have hbetween : BetweenLines gaps tokens := by
    unfold BetweenLines
    decide
  refine ⟨hplaces, hbetween, ofTokens_littered 9 tokens gaps (by decide +kernel) (by decide +kernel)
    hbetween ?_ (by decide)⟩
  rw [hplaces]
  decide

end Parsing

end Wireframe
