import Mathlib.Computability.Language
import Mathlib.Data.Nat.Digits.Defs
import Wireframe.Proofs.Row

/-!
# The language of scenes

The grammar of scenes as a formal language over tokens, rule by rule, with no word about how it is
parsed. It is ambiguous: a blank line can belong to several groups, and an item to a list or to the
group around it.

* `Grammar.scene`: the sentences of the grammar.
* `Grammar.mem_scene`: they are what the rows of some scene are made of, whichever way the scene
  groups them.
-/

open Computability

namespace Wireframe

namespace Grammar

/-! ## The rules -/

/-- A token of the given kind. -/
def terminal (kind : TokenKind) : Language Token :=
  {w | ∃ t : Token, t.kind = kind ∧ w = [t]}

/-- A keyword. -/
def keyword (k : Keyword) : Language Token :=
  terminal (.keyword k)

/-- What may be left out. -/
def optional (l : Language Token) : Language Token :=
  1 + l

/-- A number written with ASCII digits, possibly after a plus sign, that is twelve at most. -/
def IsSmallNumber (image : List Char) : Prop :=
  ∃ sign digits : List Char, image = sign ++ digits ∧ (sign = [] ∨ sign = ['+']) ∧
    digits ≠ [] ∧ (∀ c ∈ digits, c.isDigit) ∧
    Nat.ofDigits 10 (digits.reverse.map fun c => c.toNat - '0'.toNat) ≤ 12

/-- A number from zero to twelve, as a word or in digits. -/
def number : Language Token :=
  {w | ∃ t : Token, ((∃ n, t.kind = .numeral n) ∨ t.kind = .number ∧ IsSmallNumber t.chars) ∧
    w = [t]}

def literal : Language Token :=
  terminal .quotation + terminal .placeholder

def value : Language Token :=
  terminal .quotation + terminal .placeholder + terminal .freeText

def direction : Language Token :=
  optional number * (keyword .rows + keyword .columns) * terminal .lineEnd

def widget : Language Token :=
  keyword .field + keyword .button + keyword .header + keyword .image + keyword .space

def item : Language Token :=
  (widget * optional value + literal) * terminal .lineEnd

def list : Language Token :=
  keyword .list * optional value * optional (terminal .lineEnd) * keyword .consistsOf *
    terminal .lineEnd * item∗

def elements : Language Token :=
  direction * (item + list + terminal .lineEnd)∗ +
    (item + list + terminal .lineEnd) * (item + list + terminal .lineEnd)∗

def block : Language Token :=
  keyword .block * optional value * terminal .lineEnd * elements∗

def alignment : Language Token :=
  keyword .blocks * optional (literal * (terminal .comma * literal)∗) * keyword .aligned * direction

def blocks : Language Token :=
  alignment * (block + terminal .lineEnd)∗ +
    (block + terminal .lineEnd) * (block + terminal .lineEnd)∗

def device : Language Token :=
  keyword .mobile + keyword .tablet + keyword .widescreen

def page : Language Token :=
  optional device * keyword .page * value * terminal .lineEnd * blocks∗

/-- The sentences of the grammar. -/
def scene : Language Token :=
  (page + terminal .lineEnd)∗

/-! ## The rules on one line -/

section Words

variable {w : List Token}

theorem mem_terminal {kind : TokenKind} :
    w ∈ terminal kind ↔ ∃ t : Token, t.kind = kind ∧ w = [t] :=
  Iff.rfl

/-- What may be left out, of something that is one token. -/
theorem mem_optional {α : Type} {l : Language Token} {P : α → Prop} {f : α → Token}
    (h : ∀ w, w ∈ l ↔ ∃ x, P x ∧ w = [f x]) :
    w ∈ optional l ↔ ∃ o : Option α, (∀ x ∈ o, P x) ∧ w = o.toList.map f := by
  rw [optional, Language.mem_add, Language.mem_one, h]
  constructor
  · rintro (rfl | ⟨x, hx, rfl⟩)
    · exact ⟨none, by simp, rfl⟩
    · exact ⟨some x, by simpa using hx, rfl⟩
  · rintro ⟨_ | x, hx, rfl⟩
    · exact .inl rfl
    · exact .inr ⟨x, hx x rfl, rfl⟩

theorem mem_literal : w ∈ literal ↔ ∃ l : Literal, l.IsWellFormed ∧ w = [l.token] := by
  rw [literal, Language.mem_add, mem_terminal, mem_terminal]
  constructor
  · rintro (⟨t, ht, rfl⟩ | ⟨t, ht, rfl⟩)
    · exact ⟨.quotation t, ht, rfl⟩
    · exact ⟨.placeholder t, ht, rfl⟩
  · rintro ⟨t | t, ht, rfl⟩
    · exact .inl ⟨t, ht, rfl⟩
    · exact .inr ⟨t, ht, rfl⟩

theorem mem_value : w ∈ value ↔ ∃ v : Value, v.IsWellFormed ∧ w = [v.token] := by
  rw [value, Language.mem_add, Language.mem_add, mem_terminal, mem_terminal, mem_terminal]
  constructor
  · rintro ((⟨t, ht, rfl⟩ | ⟨t, ht, rfl⟩) | ⟨t, ht, rfl⟩)
    · exact ⟨.quotation t, ht, rfl⟩
    · exact ⟨.placeholder t, ht, rfl⟩
    · exact ⟨.freeText t, ht, rfl⟩
  · rintro ⟨t | t | t, ht, rfl⟩
    · exact .inr ⟨t, ht, rfl⟩
    · exact .inl (.inl ⟨t, ht, rfl⟩)
    · exact .inl (.inr ⟨t, ht, rfl⟩)

/-- Adding up digits from the first on gives the number that they write. -/
theorem foldl_digits (f : Char → Nat) (digits : List Char) (n : Nat) :
    digits.foldl (fun n c => 10 * n + f c) n =
      10 ^ digits.length * n + Nat.ofDigits 10 (digits.reverse.map f) := by
  induction digits generalizing n with
  | nil => simp
  | cons c digits ih =>
    rw [List.foldl_cons, ih, List.reverse_cons, List.map_append, Nat.ofDigits_append,
      List.length_cons, List.length_map, List.length_reverse, List.map_singleton,
      Nat.ofDigits_singleton, Nat.pow_succ, Nat.mul_add, Nat.mul_assoc, Nat.add_assoc,
      Nat.add_comm (10 ^ digits.length * f c)]

/-- A small number is told by its digits, after the plus sign if there is one. -/
theorem smallNumber?_isSome_of_digits {image digits : List Char}
    (h : image = '+' :: digits ∨ image = digits ∧ digits.head? ≠ some '+') :
    (smallNumber? image).isSome ↔ digits ≠ [] ∧ (∀ c ∈ digits, c.isDigit) ∧
      Nat.ofDigits 10 (digits.reverse.map fun c => c.toNat - '0'.toNat) ≤ 12 := by
  -- the plus sign is dropped, and all else is digits
  have hread : smallNumber? image =
      if digits.isEmpty || !digits.all Char.isDigit then none
      else
        let value := digits.foldl (fun n c => 10 * n + (c.toNat - '0'.toNat)) 0
        if value ≤ 12 then some value else none := by
    rcases h with rfl | ⟨rfl, h⟩
    · rfl
    · unfold smallNumber?
      split
      · exact absurd rfl h
      · rfl
  have hvalue := foldl_digits (fun c => c.toNat - '0'.toNat) digits 0
  rw [Nat.mul_zero, Nat.zero_add] at hvalue
  rw [hread, hvalue]
  clear hread hvalue h
  split
  · next h =>
    simp only [Bool.or_eq_true, List.isEmpty_iff, Bool.not_eq_true', List.all_eq_false] at h
    refine iff_of_false (by simp) fun ⟨hne, hall, _⟩ => ?_
    obtain ⟨c, hc, hdigit⟩ := h.resolve_left hne
    exact hdigit (hall c hc)
  · next h =>
    simp only [Bool.or_eq_true, List.isEmpty_iff, Bool.not_eq_true', not_or, Bool.not_eq_false,
      List.all_eq_true] at h
    dsimp only
    split
    · next hle => exact iff_of_true rfl ⟨h.1, h.2, hle⟩
    · next hle => exact iff_of_false (by simp) fun ⟨_, _, h⟩ => hle h

theorem isSome_smallNumber?_iff {image : List Char} :
    (smallNumber? image).isSome ↔ IsSmallNumber image := by
  constructor
  · intro h
    by_cases hplus : image.head? = some '+'
    · obtain ⟨digits, rfl⟩ := List.head?_eq_some_iff.1 hplus
      exact ⟨['+'], digits, rfl, .inr rfl, (smallNumber?_isSome_of_digits (.inl rfl)).1 h⟩
    · exact ⟨[], image, rfl, .inl rfl, (smallNumber?_isSome_of_digits (.inr ⟨rfl, hplus⟩)).1 h⟩
  · rintro ⟨sign, digits, rfl, rfl | rfl, h⟩
    · refine (smallNumber?_isSome_of_digits (.inr ⟨rfl, fun hplus => ?_⟩)).2 h
      exact absurd (h.2.1 '+' (List.mem_of_mem_head? hplus)) (by decide)
    · exact (smallNumber?_isSome_of_digits (.inl rfl)).2 h

theorem mem_number : w ∈ number ↔ ∃ c : Count, c.IsWellFormed ∧ w = [c.token] := by
  have h : ∀ t : Token, t.count?.isSome ↔
      ((∃ n, t.kind = .numeral n) ∨ t.kind = .number ∧ IsSmallNumber t.chars) := by
    intro t
    rw [Token.count?]
    cases t.kind <;> simp [isSome_smallNumber?_iff]
  constructor
  · rintro ⟨t, ht, rfl⟩
    obtain ⟨n, hn⟩ := Option.isSome_iff_exists.1 ((h t).2 ht)
    exact ⟨⟨t, n⟩, hn, rfl⟩
  · rintro ⟨c, hc, rfl⟩
    exact ⟨c.token, (h c.token).1 (hc ▸ rfl), rfl⟩

theorem mem_direction :
    w ∈ direction ↔ ∃ d : Direction, d.IsWellFormed ∧ w = d.leaves := by
  constructor
  · rintro ⟨_, ⟨c, hc, a, ha, rfl⟩, _, ⟨e, he, rfl⟩, rfl⟩
    obtain ⟨count, hcount, rfl⟩ := (mem_optional fun _ => mem_number).1 hc
    have key : ∃ (axis : Axis) (k : Token), k.kind = .keyword axis.keyword ∧ a = [k] := by
      rcases ha with ⟨k, hk, rfl⟩ | ⟨k, hk, rfl⟩
      · exact ⟨.row, k, hk, rfl⟩
      · exact ⟨.column, k, hk, rfl⟩
    obtain ⟨axis, k, hk, rfl⟩ := key
    exact ⟨⟨count, k, axis, e⟩, ⟨hcount, hk, he⟩, by simp [Direction.leaves]⟩
  · rintro ⟨⟨count, k, axis, e⟩, ⟨hcount, hk, he⟩, rfl⟩
    refine ⟨_, ⟨_, (mem_optional fun _ => mem_number).2 ⟨count, hcount, rfl⟩, [k], ?_, rfl⟩, [e],
      ⟨e, he, rfl⟩, by simp [Direction.leaves]⟩
    cases axis
    · exact .inl ⟨k, hk, rfl⟩
    · exact .inr ⟨k, hk, rfl⟩

theorem mem_widget :
    w ∈ widget ↔ ∃ (kind : Widget) (k : Token), k.kind = .keyword kind.keyword ∧ w = [k] := by
  constructor
  · rintro ((((⟨k, hk, rfl⟩ | ⟨k, hk, rfl⟩) | ⟨k, hk, rfl⟩) | ⟨k, hk, rfl⟩) | ⟨k, hk, rfl⟩)
    · exact ⟨.field, k, hk, rfl⟩
    · exact ⟨.button, k, hk, rfl⟩
    · exact ⟨.header, k, hk, rfl⟩
    · exact ⟨.image, k, hk, rfl⟩
    · exact ⟨.space, k, hk, rfl⟩
  · rintro ⟨kind, k, hk, rfl⟩
    cases kind with
    | field => exact .inl (.inl (.inl (.inl ⟨k, hk, rfl⟩)))
    | button => exact .inl (.inl (.inl (.inr ⟨k, hk, rfl⟩)))
    | header => exact .inl (.inl (.inr ⟨k, hk, rfl⟩))
    | image => exact .inl (.inr ⟨k, hk, rfl⟩)
    | space => exact .inr ⟨k, hk, rfl⟩

theorem mem_item : w ∈ item ↔ ∃ i : Item, i.IsWellFormed ∧ w = i.leaves := by
  constructor
  · rintro ⟨_, ⟨k, hk, v, hv, rfl⟩ | hl, _, ⟨e, he, rfl⟩, rfl⟩
    · obtain ⟨kind, k, hkind, rfl⟩ := mem_widget.1 hk
      obtain ⟨v, hvalue, rfl⟩ := (mem_optional fun _ => mem_value).1 hv
      exact ⟨⟨.widget kind k v, e⟩, ⟨⟨hkind, hvalue⟩, he⟩, rfl⟩
    · obtain ⟨l, hliteral, rfl⟩ := mem_literal.1 hl
      exact ⟨⟨.literal l, e⟩, ⟨hliteral, he⟩, rfl⟩
  · rintro ⟨⟨kind | l, e⟩, ⟨hc, he⟩, rfl⟩
    · exact ⟨_, .inl ⟨_, mem_widget.2 ⟨_, _, hc.1, rfl⟩, _,
        (mem_optional fun _ => mem_value).2 ⟨_, hc.2, rfl⟩, rfl⟩, _, ⟨e, he, rfl⟩, rfl⟩
    · exact ⟨_, .inr (mem_literal.2 ⟨l, hc, rfl⟩), _, ⟨e, he, rfl⟩, rfl⟩

/-- Any number of something. -/
theorem mem_kstar {α : Type} {l : Language Token} {K : α → List Token → Prop}
    (h : ∀ w, w ∈ l ↔ ∃ x, K x w) : w ∈ l∗ ↔ ∃ xs, Members K xs w := by
  rw [Language.mem_kstar]
  constructor
  · rintro ⟨ws, rfl, hws⟩
    induction ws with
    | nil => exact ⟨[], .nil⟩
    | cons w ws ih =>
      obtain ⟨xs, hxs⟩ := ih fun y hy => hws y (List.mem_cons_of_mem _ hy)
      obtain ⟨x, hx⟩ := (h w).1 (hws w List.mem_cons_self)
      exact ⟨x :: xs, .cons hx hxs⟩
  · rintro ⟨xs, hxs⟩
    induction hxs with
    | nil => exact ⟨[], rfl, by simp⟩
    | @cons x used _ _ hx _ ih =>
      obtain ⟨ws, rfl, hws⟩ := ih
      exact ⟨used :: ws, rfl, List.forall_mem_cons.2 ⟨(h used).2 ⟨x, hx⟩, hws⟩⟩

/-- The names of an alignment, with commas between them. -/
theorem mem_names : w ∈ optional (literal * (terminal .comma * literal)∗) ↔
    ∃ (names : List Literal) (commas : List Token), (∀ l ∈ names, l.IsWellFormed) ∧
      (∀ t ∈ commas, t.kind = .comma) ∧ commas.length = names.length - 1 ∧
      w = separated (names.map Literal.token) commas := by
  have hnext : ∀ w, w ∈ terminal .comma * literal ↔ ∃ n : Token × Literal,
      (n.1.kind = .comma ∧ n.2.IsWellFormed) ∧ w = [n.1, n.2.token] := by
    intro w
    constructor
    · rintro ⟨_, ⟨c, hc, rfl⟩, _, hl, rfl⟩
      obtain ⟨l, hliteral, rfl⟩ := mem_literal.1 hl
      exact ⟨(c, l), ⟨hc, hliteral⟩, rfl⟩
    · rintro ⟨⟨c, l⟩, ⟨hc, hl⟩, rfl⟩
      exact ⟨[c], ⟨c, hc, rfl⟩, [l.token], mem_literal.2 ⟨l, hl, rfl⟩, rfl⟩
  constructor
  · rintro (rfl | ⟨_, hl, _, hmore, rfl⟩)
    · exact ⟨[], [], by simp, by simp, rfl, rfl⟩
    · obtain ⟨first, hfirst, rfl⟩ := mem_literal.1 hl
      obtain ⟨more, hmembers⟩ := (mem_kstar hnext).1 hmore
      obtain ⟨hall, rfl⟩ := Members.iff_flatMap.1 hmembers
      refine ⟨first :: more.map Prod.snd, more.map Prod.fst,
        List.forall_mem_cons.2 ⟨hfirst, List.forall_mem_map.2 fun n hn => (hall n hn).2⟩,
        List.forall_mem_map.2 fun n hn => (hall n hn).1, by simp, ?_⟩
      rw [List.map_cons, List.map_map]
      exact (separated_cons_map Literal.token first.token more).symm
  · rintro ⟨names, commas, hnames, hcommas, hlen, rfl⟩
    cases names with
    | nil => exact .inl (by rw [List.length_eq_zero_iff.1 hlen]; rfl)
    | cons first names =>
      obtain ⟨hfirst, hnames⟩ := List.forall_mem_cons.1 hnames
      -- every later name goes with the comma before it
      obtain ⟨more, rfl, rfl⟩ := exists_pairs hlen
      refine .inr ⟨_, mem_literal.2 ⟨first, hfirst, rfl⟩, more.flatMap fun n => [n.1, n.2.token],
        (mem_kstar hnext).2 ⟨more, Members.iff_flatMap.2 ⟨fun n hn => ?_, rfl⟩⟩, ?_⟩
      · exact ⟨hcommas _ (List.mem_map_of_mem hn), hnames _ (List.mem_map_of_mem hn)⟩
      · rw [List.map_cons, List.map_map]
        exact (separated_cons_map Literal.token first.token more).symm

theorem mem_alignment : w ∈ alignment ↔ ∃ a : Alignment, a.IsWellFormed ∧ w = a.written := by
  constructor
  · rintro ⟨_, ⟨_, ⟨_, ⟨k, hk, rfl⟩, _, hn, rfl⟩, _, ⟨al, hal, rfl⟩, rfl⟩, _, hd, rfl⟩
    obtain ⟨names, commas, hnames, hcommas, hlen, rfl⟩ := mem_names.1 hn
    obtain ⟨d, hdir, rfl⟩ := mem_direction.1 hd
    exact ⟨⟨k, names, commas, al, d⟩, ⟨hk, hnames, hcommas, hlen, hal, hdir⟩,
      by simp [Alignment.written]⟩
  · rintro ⟨⟨k, names, commas, al, d⟩, ⟨hk, hnames, hcommas, hlen, hal, hd⟩, rfl⟩
    exact ⟨_, ⟨_, ⟨_, ⟨k, hk, rfl⟩, _, mem_names.2 ⟨_, _, hnames, hcommas, hlen, rfl⟩, rfl⟩, _,
      ⟨al, hal, rfl⟩, rfl⟩, _, mem_direction.2 ⟨d, hd, rfl⟩, by simp [Alignment.written]⟩

/-! ## The rules over several lines -/

theorem mem_items : w ∈ item∗ ↔
    ∃ items : List Item, Spells (fun items rows => rows = items.map Row.item) items w := by
  rw [mem_kstar fun _ => mem_item]
  refine exists_congr fun items => ?_
  rw [Members.iff_flatMap]
  constructor
  · rintro ⟨hall, rfl⟩
    refine ⟨items.map .item, rfl, List.forall_mem_map.2 hall, ?_⟩
    rw [Row.tokens, List.flatMap_map]
    rfl
  · rintro ⟨rows, rfl, hall, rfl⟩
    refine ⟨fun i hi => hall _ (List.mem_map_of_mem hi), ?_⟩
    rw [Row.tokens, List.flatMap_map]
    rfl

theorem mem_list :
    w ∈ list ↔ ∃ l : ItemList, Spells (fun l rows => rows = ItemList.rows l) l w := by
  have hend : ∀ w, w ∈ terminal .lineEnd ↔ ∃ t : Token, t.kind = .lineEnd ∧ w = [id t] :=
    fun _ => mem_terminal
  constructor
  · rintro ⟨_, ⟨_, ⟨_, ⟨_, ⟨_, ⟨k, hk, rfl⟩, _, hv, rfl⟩, _, he, rfl⟩, _, ⟨c, hc, rfl⟩, rfl⟩, _,
      ⟨e, hle, rfl⟩, rfl⟩, _, hi, rfl⟩
    obtain ⟨title, htitle, rfl⟩ := (mem_optional fun _ => mem_value).1 hv
    obtain ⟨headerEnd, hheader, rfl⟩ := (mem_optional hend).1 he
    obtain ⟨items, hitems⟩ := mem_items.1 hi
    refine ⟨⟨k, title, headerEnd, c, e, items⟩, ?_⟩
    have h := hitems.cons (Q := fun l rows => rows = ItemList.rows l)
      (y := ⟨k, title, headerEnd, c, e, items⟩) (r := .list k title headerEnd c e)
      ⟨hk, htitle, hheader, hc, hle⟩ fun rows hrows => by rw [hrows]; rfl
    simpa [Row.leaves] using h
  · rintro ⟨⟨k, title, headerEnd, c, e, items⟩, rows, rfl, hall, rfl⟩
    obtain ⟨⟨hk, htitle, hheader, hc, hle⟩, hitems⟩ := List.forall_mem_cons.1 hall
    refine ⟨_, ⟨_, ⟨_, ⟨_, ⟨_, ⟨k, hk, rfl⟩, _, (mem_optional fun _ => mem_value).2
      ⟨title, htitle, rfl⟩, rfl⟩, _, (mem_optional hend).2 ⟨headerEnd, hheader, rfl⟩, rfl⟩, _,
      ⟨c, hc, rfl⟩, rfl⟩, _, ⟨e, hle, rfl⟩, rfl⟩, _, mem_items.2 ⟨items, _, rfl, hitems, rfl⟩, ?_⟩
    simp [ItemList.rows, ItemList.headRow, Row.leaves]

/-- Any number of trees. -/
theorem mem_kstar_spells {α : Type} {l : Language Token} {P : α → List Row → Prop}
    (h : ∀ w, w ∈ l ↔ ∃ x, Spells P x w) :
    w ∈ l∗ ↔ ∃ xs, Spells (RowsOf P fun _ _ => True) xs w := by
  rw [mem_kstar h]
  refine exists_congr fun xs => ⟨Members.spells, ?_⟩
  rintro ⟨rows, hrows, hwell, rfl⟩
  exact .of_rowsOf hrows hwell

section Lines

variable {α : Type} {l : Language Token} {P : α → List Row → Prop}

/-- A line is blank, or something begins on it. -/
theorem mem_line (h : ∀ w, w ∈ l ↔ ∃ x, Spells P x w) (w : List Token) :
    w ∈ l + terminal .lineEnd ↔ ∃ x, Spells (Line.Reads P) x w := by
  constructor
  · rintro (hw | ⟨t, ht, rfl⟩)
    · obtain ⟨x, hx⟩ := (h w).1 hw
      exact ⟨.content x, hx⟩
    · exact ⟨.blank t, .row (r := .blank t) rfl ht⟩
  · rintro ⟨t | x, hx⟩
    · obtain ⟨rows, rfl, hwell, rfl⟩ := hx
      exact .inr ⟨t, hwell _ List.mem_cons_self, rfl⟩
    · exact .inl ((h w).2 ⟨x, hx⟩)

/-- Any number of lines. -/
theorem mem_lines (h : ∀ w, w ∈ l ↔ ∃ x, Spells P x w) :
    w ∈ (l + terminal .lineEnd)∗ ↔ ∃ (members : List α) (blanks : List Token) (rows : List Row),
      RowsOfLines P (fun _ _ => True) members blanks rows ∧ (∀ r ∈ rows, r.IsWellFormed) ∧
        w = Row.tokens rows := by
  rw [mem_kstar_spells (mem_line h)]
  constructor
  · rintro ⟨lines, rows, hrows, hwell, rfl⟩
    refine ⟨_, _, rows, ⟨lines, rfl, rfl, hrows.mono (fun _ _ h => h) ?_⟩, hwell, rfl⟩
    rintro (t | x) rows _ <;> trivial
  · rintro ⟨_, _, rows, ⟨lines, -, -, hrows⟩, hwell, rfl⟩
    exact ⟨lines, rows, hrows.mono (fun _ _ h => h) fun _ _ _ => trivial, hwell, rfl⟩

/-- A group: what may lead it, and lines; there is one or the other. -/
theorem mem_group {δ : Type} {lead : Language Token} {f : δ → Row}
    (hlead : ∀ w, w ∈ lead ↔ ∃ d, (f d).IsWellFormed ∧ w = (f d).leaves)
    (h : ∀ w, w ∈ l ↔ ∃ x, Spells P x w) (hP : ∀ x r, P x r → r ≠ []) :
    w ∈ lead * (l + terminal .lineEnd)∗ + (l + terminal .lineEnd) * (l + terminal .lineEnd)∗ ↔
      ∃ (d : Option δ) (members : List α) (blanks : List Token) (rows : List Row),
        RowsOfLines P (fun _ _ => True) members blanks rows ∧
          (∀ r ∈ d.toList.map f ++ rows, r.IsWellFormed) ∧ d.toList.map f ++ rows ≠ [] ∧
          w = Row.tokens (d.toList.map f ++ rows) := by
  constructor
  · rintro (⟨_, hd, _, hlines, rfl⟩ | hlines)
    · obtain ⟨d, hwf, rfl⟩ := (hlead _).1 hd
      obtain ⟨members, blanks, rows, hrows, hwell, rfl⟩ := (mem_lines h).1 hlines
      exact ⟨some d, members, blanks, rows, hrows, List.forall_mem_cons.2 ⟨hwf, hwell⟩,
        List.cons_ne_nil _ _, rfl⟩
    · have hstar : w ∈ (l + terminal .lineEnd)∗ := by
        rw [← Language.one_add_self_mul_kstar_eq_kstar]
        exact .inr hlines
      obtain ⟨members, blanks, rows, hrows, hwell, rfl⟩ := (mem_lines h).1 hstar
      refine ⟨none, members, blanks, rows, hrows, hwell, fun h0 => ?_, rfl⟩
      -- the first line is not empty
      obtain ⟨first, hfirst, rest, -, htokens⟩ := hlines
      rw [show rows = [] from h0] at htokens
      obtain ⟨line, r, hline, -, rfl⟩ := (mem_line h first).1 hfirst
      have hr : r = [] := Row.tokens_eq_nil_iff.1 (List.append_eq_nil_iff.1 htokens).1
      cases line with
      | blank t => exact absurd (hr.symm.trans hline) (List.cons_ne_nil _ _).symm
      | content x => exact hP x r hline hr
  · rintro ⟨d, members, blanks, rows, hrows, hwell, hne, rfl⟩
    cases d with
    | some d =>
      obtain ⟨hd, hwell⟩ := List.forall_mem_cons.1 hwell
      exact .inl ⟨_, (hlead _).2 ⟨d, hd, rfl⟩, _,
        (mem_lines h).2 ⟨members, blanks, rows, hrows, hwell, rfl⟩, rfl⟩
    | none =>
      have hstar := (mem_lines h).2 ⟨members, blanks, rows, hrows, hwell, rfl⟩
      rw [← Language.one_add_self_mul_kstar_eq_kstar] at hstar
      exact .inr (hstar.resolve_left fun h0 => hne (Row.tokens_eq_nil_iff.1 h0))

end Lines

theorem mem_entry :
    w ∈ item + list ↔ ∃ e : Element, Spells (fun e r => r = Element.rows e) e w := by
  constructor
  · rintro (hw | hw)
    · obtain ⟨i, hi, rfl⟩ := mem_item.1 hw
      exact ⟨.item i, .row (r := .item i) rfl hi⟩
    · obtain ⟨l, hl⟩ := mem_list.1 hw
      exact ⟨.list l, hl⟩
  · rintro ⟨i | l, h⟩
    · obtain ⟨rows, rfl, hwell, rfl⟩ := h
      exact .inl (mem_item.2 ⟨i, hwell _ List.mem_cons_self, List.append_nil _⟩)
    · exact .inr (mem_list.2 ⟨l, h⟩)

theorem mem_elements : w ∈ elements ↔
    ∃ g : ElementGroup, Spells (fun g rows => g.Reads False rows ∧ rows ≠ []) g w := by
  rw [elements, mem_group (f := Row.direction) (fun _ => mem_direction) (fun _ => mem_entry)
    fun e r h => h ▸ e.rows_ne_nil]
  constructor
  · rintro ⟨d, members, blanks, rows, hrows, hwell, hne, rfl⟩
    exact ⟨⟨d, members, blanks⟩, _, ⟨⟨rows, hrows.mono (fun _ _ h => h) fun e rows _ =>
      e.allows_false rows, rfl⟩, hne⟩, hwell, rfl⟩
  · rintro ⟨g, _, ⟨⟨rows, hrows, rfl⟩, hne⟩, hwell, rfl⟩
    exact ⟨g.direction, g.entries, g.lineEnds, rows,
      hrows.mono (fun _ _ h => h) fun _ _ _ => trivial, hwell, hne, rfl⟩

theorem mem_block : w ∈ block ↔ ∃ b : Block, Spells (Block.Reads False) b w := by
  constructor
  · rintro ⟨_, ⟨_, ⟨_, ⟨k, hk, rfl⟩, _, hv, rfl⟩, _, ⟨e, he, rfl⟩, rfl⟩, _, hg, rfl⟩
    obtain ⟨title, htitle, rfl⟩ := (mem_optional fun _ => mem_value).1 hv
    obtain ⟨groups, rows, hrows, hwell, rfl⟩ := (mem_kstar_spells fun _ => mem_elements).1 hg
    refine ⟨⟨k, title, e, groups⟩, _, ⟨rows, ?_, rfl⟩,
      List.forall_mem_cons.2 ⟨⟨hk, htitle, he⟩, hwell⟩, ?_⟩
    · exact hrows.mono (fun _ _ h => h) fun _ _ _ => False.elim
    · simp [Block.headRow, Row.leaves]
  · rintro ⟨⟨k, title, e, groups⟩, _, ⟨rows, hrows, rfl⟩, hwell, rfl⟩
    obtain ⟨⟨hk, htitle, he⟩, hwell⟩ := List.forall_mem_cons.1 hwell
    refine ⟨_, ⟨_, ⟨_, ⟨k, hk, rfl⟩, _, (mem_optional fun _ => mem_value).2 ⟨title, htitle, rfl⟩,
      rfl⟩, _, ⟨e, he, rfl⟩, rfl⟩, _, (mem_kstar_spells fun _ => mem_elements).2
        ⟨groups, rows, hrows.mono (fun _ _ h => h) fun _ _ _ => trivial, hwell, rfl⟩, ?_⟩
    simp [Block.headRow, Row.leaves]

theorem mem_blocks : w ∈ blocks ↔
    ∃ g : BlockGroup, Spells (fun g rows => g.Reads False rows ∧ rows ≠ []) g w := by
  rw [blocks, mem_group (f := Row.alignment) (fun _ => mem_alignment) (fun _ => mem_block)
    fun _ _ h => h.ne_nil]
  constructor
  · rintro ⟨a, members, blanks, rows, hrows, hwell, hne, rfl⟩
    exact ⟨⟨a, members, blanks⟩, _, ⟨⟨rows, hrows.mono (fun _ _ h => h) fun _ _ _ => False.elim,
      rfl⟩, hne⟩, hwell, rfl⟩
  · rintro ⟨g, _, ⟨⟨rows, hrows, rfl⟩, hne⟩, hwell, rfl⟩
    exact ⟨g.alignment, g.blocks, g.lineEnds, rows,
      hrows.mono (fun _ _ h => h) fun _ _ _ => trivial, hwell, hne, rfl⟩

theorem mem_device : w ∈ device ↔ ∃ d : DeviceTag, d.IsWellFormed ∧ w = [d.token] := by
  constructor
  · rintro ((⟨t, ht, rfl⟩ | ⟨t, ht, rfl⟩) | ⟨t, ht, rfl⟩)
    · exact ⟨⟨.mobile, t⟩, ht, rfl⟩
    · exact ⟨⟨.tablet, t⟩, ht, rfl⟩
    · exact ⟨⟨.widescreen, t⟩, ht, rfl⟩
  · rintro ⟨⟨device, t⟩, ht, rfl⟩
    cases device with
    | mobile => exact .inl (.inl ⟨t, ht, rfl⟩)
    | tablet => exact .inl (.inr ⟨t, ht, rfl⟩)
    | widescreen => exact .inr ⟨t, ht, rfl⟩

theorem mem_page : w ∈ page ↔ ∃ p : Page, Spells (Page.Reads False) p w := by
  constructor
  · rintro ⟨_, ⟨_, ⟨_, ⟨_, hd, _, ⟨k, hk, rfl⟩, rfl⟩, _, hv, rfl⟩, _, ⟨e, he, rfl⟩, rfl⟩,
      _, hg, rfl⟩
    obtain ⟨device, hdevice, rfl⟩ := (mem_optional fun _ => mem_device).1 hd
    obtain ⟨title, htitle, rfl⟩ := mem_value.1 hv
    obtain ⟨groups, rows, hrows, hwell, rfl⟩ := (mem_kstar_spells fun _ => mem_blocks).1 hg
    refine ⟨⟨device, k, title, e, groups⟩, _, ⟨rows, ?_, rfl⟩,
      List.forall_mem_cons.2 ⟨⟨hdevice, hk, htitle, he⟩, hwell⟩, ?_⟩
    · exact hrows.mono (fun _ _ h => h) fun _ _ _ => False.elim
    · simp [Page.headRow, Row.leaves]
  · rintro ⟨⟨device, k, title, e, groups⟩, _, ⟨rows, hrows, rfl⟩, hwell, rfl⟩
    obtain ⟨⟨hdevice, hk, htitle, he⟩, hwell⟩ := List.forall_mem_cons.1 hwell
    refine ⟨_, ⟨_, ⟨_, ⟨_, (mem_optional fun _ => mem_device).2 ⟨device, hdevice, rfl⟩, _,
      ⟨k, hk, rfl⟩, rfl⟩, _, mem_value.2 ⟨title, htitle, rfl⟩, rfl⟩, _, ⟨e, he, rfl⟩, rfl⟩, _,
      (mem_kstar_spells fun _ => mem_blocks).2
        ⟨groups, rows, hrows.mono (fun _ _ h => h) fun _ _ _ => trivial, hwell, rfl⟩, ?_⟩
    simp [Page.headRow, Row.leaves]

/-- The sentences of the grammar are what the rows of scenes are made of. -/
theorem mem_scene : w ∈ scene ↔ ∃ s : Scene, Spells (Scene.Reads False) s w := by
  rw [scene, mem_lines fun _ => mem_page]
  constructor
  · rintro ⟨pages, blanks, rows, hrows, hwell, rfl⟩
    exact ⟨⟨pages, blanks, []⟩, rows, hrows.mono (fun _ _ h => h) fun _ _ _ => False.elim,
      hwell, rfl⟩
  · rintro ⟨s, rows, hrows, hwell, rfl⟩
    exact ⟨s.pages, s.lineEnds, rows, hrows.mono (fun _ _ h => h) fun _ _ _ => trivial, hwell, rfl⟩

end Words

end Grammar

end Wireframe
