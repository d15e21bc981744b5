import Wireframe.Proofs.Grammar.Account
import Wireframe.Proofs.Grouping

/-!
# Parsing what is known

A parse *replays* something when it gives just that wherever the tokens of it come next, reads them
and no more, and reports nothing. What follows them may matter, by the kind that it begins with: a
title is read if there is one, so none must follow where the title is left out.

Every row is replayed by its rule.
-/

namespace Wireframe

namespace TokenKind

/-- Whether a value begins with a kind. -/
def startsValue : TokenKind → Bool
  | freeText => true
  | kind => kind.startsLiteral

/-- Every kind may follow. -/
def any (_ : TokenKind) : Bool := true

end TokenKind

namespace Parse

variable {α β : Type} {x : α} {y : β} {p : Parse α} {f : α → Parse β} {w u : List Token}
  {follow follow' : TokenKind → Bool}

/-- What is left begins with a kind that has a property, unless nothing is left. -/
def Begins (follow : TokenKind → Bool) (rest : List Token) : Prop :=
  ∀ t ∈ rest.head?, follow t.kind = true

/-- A parse gives `x` wherever the tokens `w` come next, and reads just these, as long as what
    follows them begins with a kind that may follow. -/
def Replays (p : Parse α) (x : α) (w : List Token) (follow : TokenKind → Bool) : Prop :=
  ∀ ctx s rest, isHalted ctx s = false → s.rest = w ++ rest → Begins follow rest →
    p ctx s = (some x, { s with rest := rest })

namespace Begins

theorem nil : Begins follow [] := fun _ h => absurd h (Option.not_mem_none _)

theorem any (rest : List Token) : Begins TokenKind.any rest := fun _ _ => rfl

theorem cons {t : Token} {rest : List Token} (h : follow t.kind = true) :
    Begins follow (t :: rest) :=
  fun _ ht => Option.some.inj ht ▸ h

theorem mono (h : ∀ kind, follow kind = true → follow' kind = true) {rest : List Token}
    (hrest : Begins follow rest) : Begins follow' rest :=
  fun t ht => h t.kind (hrest t ht)

end Begins

namespace Replays

theorem give : Replays (Parse.give x) x [] TokenKind.any := by
  intro ctx s rest _ hs _
  rw [show rest = s.rest from hs.symm]
  rfl

theorem mono (h : Replays p x w follow)
    (hfollow : ∀ kind, follow' kind = true → follow kind = true) :
    Replays p x w follow' := fun ctx s rest hhalt hs hrest =>
  h ctx s rest hhalt hs (hrest.mono hfollow)

/-- One parse after the other, where the second reads something that may follow the first. -/
theorem bind (hp : Replays p x w follow) (hf : Replays (f x) y u follow')
    (h : ∀ rest, Begins follow' rest → Begins follow (u ++ rest)) :
    Replays (andThen p f) y (w ++ u) follow' := by
  intro ctx s rest hhalt hs hrest
  rw [List.append_assoc] at hs
  rw [andThen_some (hp ctx s _ hhalt hs (h rest hrest))]
  exact hf ctx { s with rest := u ++ rest } rest hhalt rfl hrest

theorem bind_any (hp : Replays p x w TokenKind.any) (hf : Replays (f x) y u follow') :
    Replays (andThen p f) y (w ++ u) follow' :=
  hp.bind hf fun _ _ => Begins.any _

theorem bind_give (hp : Replays p x w follow) (g : α → β) :
    Replays (andThen p fun x => Parse.give (g x)) (g x) w follow := by
  intro ctx s rest hhalt hs hrest
  rw [andThen_some (hp ctx s rest hhalt hs hrest)]
  rfl

theorem within (h : Replays p x w follow) (rule : Rule) :
    Replays (Parse.within rule p) x w follow := by
  intro ctx s rest hhalt hs hrest
  rw [Parse.within, h ctx { s with path := s.path ++ [rule] } rest hhalt hs hrest]
  simp only [List.dropLast_concat]

theorem orSkipLine (h : Replays p x w follow) : Replays (Parse.orSkipLine p) x w follow := by
  intro ctx s rest hhalt hs hrest
  rw [Parse.orSkipLine, h ctx s rest hhalt hs hrest]

theorem attempt (h : Replays p x w follow) : Replays (Parse.attempt p) (some x) w follow := by
  intro ctx s rest hhalt hs hrest
  rw [Parse.attempt, h ctx s rest hhalt hs hrest]

end Replays

/-! ## The tokens of a row -/

theorem replays_next (t : Token) : Replays next t [t] TokenKind.any := by
  intro ctx s rest _ hs _
  exact next_cons hs ctx

/-- A look at the next token. -/
theorem Replays.peek {f : Option TokenKind → Parse β} {t : Token}
    (h : Replays (f (some t.kind)) y (t :: w) follow) :
    Replays (andThen Parse.peek f) y (t :: w) follow := by
  intro ctx s rest hhalt hs hrest
  rw [peek_andThen, hs]
  exact h ctx s rest hhalt hs hrest

/-- A look at what follows. -/
theorem Replays.peek_none {f : Option TokenKind → Parse β}
    (h : ∀ o : Option TokenKind, (∀ kind ∈ o, follow kind = true) → f o = Parse.give y) :
    Replays (andThen Parse.peek f) y [] follow := by
  intro ctx s rest hhalt hs hrest
  rw [peek_andThen, h]
  · exact Replays.give ctx s rest hhalt hs (Begins.any _)
  · intro kind hkind
    obtain ⟨t, ht, rfl⟩ := Option.map_eq_some_iff.1 hkind
    rw [hs] at ht
    exact hrest t ht

theorem replays_expect {kind : TokenKind} {t : Token} (ht : t.kind = kind) (e : Expectation) :
    Replays (expect kind e) t [t] TokenKind.any := by
  rw [expect, bind_eq]
  refine .peek ?_
  rw [if_pos (congrArg some ht)]
  exact replays_next t

theorem replays_optionalToken {kind : TokenKind} {o : Option Token} (ho : ∀ t ∈ o, t.kind = kind) :
    Replays (optionalToken kind) o o.toList (fun k => k ≠ kind) := by
  rw [optionalToken, bind_eq]
  cases o with
  | none =>
    refine .peek_none fun o ho => if_neg fun h => ?_
    exact absurd rfl (of_decide_eq_true (ho kind h))
  | some t =>
    refine .peek ?_
    rw [if_pos (congrArg some (ho t rfl))]
    exact ((replays_next t).bind_give some).mono fun _ _ => rfl

theorem replays_some_value {v : Value} (hv : v.IsWellFormed) :
    Replays optionalValue (some v) [v.token] TokenKind.any := by
  rw [optionalValue, bind_eq]
  refine .peek ?_
  rw [show v.token.kind = v.kind from hv]
  cases v with
  | freeText t => exact (replays_next t).bind_give fun t => some (Value.freeText t)
  | quotation t => exact (replays_next t).bind_give fun t => some (Value.quotation t)
  | placeholder t => exact (replays_next t).bind_give fun t => some (Value.placeholder t)

theorem replays_optionalValue {o : Option Value} (ho : ∀ v ∈ o, v.IsWellFormed) :
    Replays optionalValue o (o.toList.map Value.token) (!·.startsValue) := by
  cases o with
  | some v => exact (replays_some_value (ho v rfl)).mono fun _ _ => rfl
  | none =>
    rw [optionalValue, bind_eq]
    refine .peek_none fun o ho => ?_
    cases o with
    | none => rfl
    | some kind =>
      have hkind := ho kind rfl
      cases kind <;> first | rfl | exact Bool.noConfusion hkind

theorem replays_value {v : Value} (hv : v.IsWellFormed) (e : Expectation) :
    Replays (value e) v [v.token] TokenKind.any := by
  refine Replays.within ?_ .value
  rw [bind_eq]
  exact (replays_some_value hv).bind_any (u := []) .give

theorem replays_some_literal {l : Literal} (hl : l.IsWellFormed) :
    Replays optionalLiteral (some l) [l.token] TokenKind.any := by
  rw [optionalLiteral, bind_eq]
  refine .peek ?_
  rw [show l.token.kind = l.kind from hl]
  cases l with
  | quotation t => exact (replays_next t).bind_give fun t => some (Literal.quotation t)
  | placeholder t => exact (replays_next t).bind_give fun t => some (Literal.placeholder t)

theorem replays_none_literal : Replays optionalLiteral none [] (!·.startsLiteral) := by
  rw [optionalLiteral, bind_eq]
  refine .peek_none fun o ho => ?_
  cases o with
  | none => rfl
  | some kind =>
    have hkind := ho kind rfl
    cases kind <;> first | rfl | exact Bool.noConfusion hkind

theorem replays_literal {l : Literal} (hl : l.IsWellFormed) (e : Expectation) :
    Replays (literal e) l [l.token] TokenKind.any := by
  refine Replays.within ?_ .literal
  rw [bind_eq]
  exact (replays_some_literal hl).bind_any (u := []) .give

/-! ## Directions -/

theorem startsNumber_of_count? {t : Token} {n : Nat} (h : t.count? = some n) :
    t.kind.startsNumber = true := by
  rw [Token.count?] at h
  cases hk : t.kind <;> rw [hk] at h <;> first | rfl | cases h

theorem replays_number {c : Count} (hc : c.IsWellFormed) :
    Replays number c [c.token] TokenKind.any := by
  refine Replays.within ((replays_next c.token).bind_any (u := []) ?_) .number
  rw [show c.token.count? = some c.value from hc]
  exact .give

theorem replays_optionalCount {o : Option Count} (ho : ∀ c ∈ o, c.IsWellFormed) :
    Replays optionalCount o (o.toList.map Count.token) (!·.startsNumber) := by
  rw [optionalCount, bind_eq]
  cases o with
  | some c =>
    refine .peek ?_
    dsimp only
    rw [if_pos (startsNumber_of_count? (ho c rfl))]
    exact (replays_number (ho c rfl)).attempt.mono fun _ _ => rfl
  | none =>
    refine .peek_none fun o ho => ?_
    cases o with
    | none => rfl
    | some kind => exact if_neg (by simpa using ho kind rfl)

/-- The axis is read off the keyword that comes next. -/
theorem Replays.axis {f : Axis → Parse β} {a : Axis} {t : Token}
    (ht : t.kind = .keyword a.keyword) (h : Replays (f a) y (t :: w) follow) :
    Replays (andThen Parse.axis f) y (t :: w) follow := by
  intro ctx s rest hhalt hs hrest
  have ha : Parse.axis ctx s = (some a, s) := by
    rw [Parse.axis, bind_eq, peek_andThen, hs, List.cons_append,
      List.head?_cons, Option.map_some, ht]
    cases a <;> rfl
  rw [andThen_some ha]
  exact h ctx s rest hhalt hs hrest

theorem replays_direction {d : Direction} (hd : d.IsWellFormed) :
    Replays direction d d.leaves TokenKind.any := by
  refine Replays.within
    ((replays_optionalCount hd.count).bind (u := [d.keyword, d.lineEnd]) ?_ ?_) _
  · refine .axis hd.keyword ?_
    exact (replays_next d.keyword).bind_any
      ((replays_expect hd.lineEnd .directionEnd).bind_any .give)
  · intro rest _
    refine .cons ?_
    rw [hd.keyword]
    cases d.axis <;> rfl

/-! ## Items and lists -/

theorem replays_itemContent {c : ItemContent} (hc : Item.ContentIsWellFormed c) :
    Replays itemContent c (Item.contentLeaves c) (!·.startsValue) := by
  rw [itemContent, bind_eq]
  cases c with
  | widget kind k v =>
    refine .peek ?_
    have hof : Widget.ofKeyword? kind.keyword = some kind := by cases kind <;> rfl
    rw [hc.1]
    dsimp only
    rw [hof]
    exact (replays_next k).bind_any ((replays_optionalValue hc.2).bind_give _)
  | literal l =>
    refine .peek ?_
    rw [show l.token.kind = l.kind from hc]
    have h := ((replays_literal hc .item).bind_give ItemContent.literal).mono
      fun kind (_ : (!kind.startsValue) = true) => rfl
    cases l with
    | quotation t => exact h
    | placeholder t => exact h

theorem replays_item {i : Item} (hi : i.IsWellFormed) : Replays item i i.leaves TokenKind.any := by
  refine Replays.within (Replays.orSkipLine ((replays_itemContent hi.content).bind
    (u := [i.lineEnd]) ((replays_expect hi.lineEnd .itemEnd).bind_give (Item.mk i.content))
    ?_)) .item
  intro rest _
  exact .cons (by rw [hi.lineEnd]; rfl)

/-! ## Loops -/

/-- A loop that has nothing to go through. -/
theorem replays_loop_nil {stops : TokenKind → Bool} {body : TokenKind → Parse α} :
    Replays (loop stops body) [] [] stops := by
  intro ctx s rest hhalt hs hrest
  subst hs
  by_cases hnil : s.rest = []
  · exact loop_end hnil
  · obtain ⟨t, rest, ht⟩ := List.exists_cons_of_ne_nil hnil
    exact loop_stop ht (.inr (hrest t (by rw [ht]; rfl)))

/-- A repetition goes through what is next, as long as it is of the kind that leads each turn. -/
theorem replays_repeatAt {kind : TokenKind} {body : Parse α} {g : α → List Token} {xs : List α}
    (hbody : ∀ x ∈ xs, Replays body x (g x) TokenKind.any)
    (hkind : ∀ x ∈ xs, ∃ t w, g x = t :: w ∧ t.kind = kind) :
    Replays (repeatAt kind body) xs (xs.flatMap g) (· ≠ kind) := by
  induction xs with
  | nil =>
    intro ctx s rest hhalt hs hrest
    subst hs
    rw [repeatAt, if_neg]
    intro h
    obtain ⟨t, ht, hk⟩ := Option.map_eq_some_iff.1 h
    exact absurd hk (of_decide_eq_true (hrest t ht))
  | cons x xs ih =>
    intro ctx s rest hhalt hs hrest
    rw [List.flatMap_cons, List.append_assoc] at hs
    have hx := hbody x List.mem_cons_self ctx s _ hhalt hs (Begins.any _)
    obtain ⟨t, w, hg, ht⟩ := hkind x List.mem_cons_self
    have hhead : s.rest.head?.map Token.kind = some kind := by
      rw [hs, hg, ← ht]
      rfl
    -- a turn reads at least the token that leads it
    have hlt : ∀ x' s', body ctx s = (some x', s') → s'.rest.length < s.rest.length := by
      intro x' s' h
      obtain rfl : _ = s' := congrArg Prod.snd (hx.symm.trans h)
      rw [hs, hg]
      simp only [List.cons_append, List.length_cons, List.length_append]
      omega
    rw [repeatAt_step hhead hlt, andThen_some hx]
    rw [andThen_some (ih (fun x hx => hbody x (List.mem_cons_of_mem _ hx))
      (fun x hx => hkind x (List.mem_cons_of_mem _ hx)) ctx { s with rest := xs.flatMap g ++ rest }
      rest hhalt rfl hrest)]
    rfl

/-! ## Alignments -/

theorem replays_names {names : List Literal} {commas : List Token}
    (hnames : ∀ l ∈ names, l.IsWellFormed) (hcommas : ∀ t ∈ commas, t.kind = .comma)
    (hlen : commas.length = names.length - 1) :
    Replays Parse.names (names, commas) (separated (names.map Literal.token) commas)
      (· = .keyword .aligned) := by
  rw [Parse.names, bind_eq]
  cases names with
  | nil =>
    obtain rfl := List.length_eq_zero_iff.1 hlen
    refine replays_none_literal.bind (Replays.mono .give fun _ _ => rfl) fun rest hrest => ?_
    exact hrest.mono fun kind h => by rw [of_decide_eq_true h]; rfl
  | cons first names =>
    obtain ⟨hfirst, hnames⟩ := List.forall_mem_cons.1 hnames
    -- every later name goes with the comma before it
    obtain ⟨more, rfl, rfl⟩ := exists_pairs hlen
    have hmore : Replays (repeatAt .comma nextName) more (more.flatMap fun n => [n.1, n.2.token])
        (· ≠ .comma) := by
      refine replays_repeatAt (fun n hn => ?_) fun n hn =>
        ⟨n.1, _, rfl, hcommas _ (List.mem_map_of_mem hn)⟩
      exact (replays_next n.1).bind_any ((replays_literal (hnames _ (List.mem_map_of_mem hn))
        .blockName).bind_give fun l => (n.1, l))
    rw [List.map_cons, List.map_map]
    rw [show separated (first.token :: more.map (Literal.token ∘ Prod.snd)) (more.map Prod.fst) =
      [first.token] ++ more.flatMap fun n => [n.1, n.2.token] from
        separated_cons_map Literal.token first.token more]
    refine (replays_some_literal hfirst).bind_any (Replays.mono (hmore.bind_give fun more =>
      (first :: more.map Prod.snd, more.map Prod.fst)) fun kind h => ?_)
    rw [of_decide_eq_true h]
    rfl

theorem replays_alignment {a : Alignment} (ha : a.IsWellFormed) :
    Replays alignment a a.written TokenKind.any := by
  have hwritten : a.written = [a.keyword] ++ (separated (a.names.map Literal.token) a.commas ++
      ([a.aligned] ++ a.direction.leaves)) := by
    simp [Alignment.written]
  rw [hwritten]
  refine Replays.within (Replays.orSkipLine ((replays_expect ha.keyword _).bind_any
    ((replays_names ha.names ha.commas ha.between).bind ((replays_expect ha.aligned _).bind_any
      ((replays_direction ha.direction).bind_give
        (Alignment.mk a.keyword a.names a.commas a.aligned))) fun rest _ => ?_))) .alignment
  exact .cons (decide_eq_true ha.aligned)

theorem replays_some_alignment {a : Alignment} (ha : a.IsWellFormed) :
    Replays optionalAlignment (some a) a.written TokenKind.any := by
  rw [optionalAlignment, bind_eq]
  refine .peek ?_
  rw [if_pos (congrArg some ha.keyword)]
  exact (replays_alignment ha).attempt

theorem replays_none_alignment : Replays optionalAlignment none [] (· ≠ .keyword .blocks) := by
  rw [optionalAlignment, bind_eq]
  exact .peek_none fun o ho => if_neg fun h => of_decide_eq_true (ho _ h) rfl

end Parse

namespace Row

/-- Whether a row can begin with a kind. -/
def beginsWith : Row → TokenKind → Bool
  | blank _, kind => kind = .lineEnd
  | page .., kind => kind.startsPage
  | alignment _, kind => kind = .keyword .blocks
  | block .., kind => kind = .keyword .block
  | direction _, kind => kind.startsDirection
  | list .., kind => kind = .keyword .list
  | item _, kind => kind.startsItem

theorem IsWellFormed.exists_leaves {r : Row} (h : r.IsWellFormed) :
    ∃ t w, r.leaves = t :: w ∧ r.beginsWith t.kind = true := by
  cases r with
  | blank t => exact ⟨t, [], rfl, decide_eq_true h⟩
  | page device k title e =>
    cases device with
    | none => exact ⟨k, _, rfl, by rw [beginsWith, h.2.1]; rfl⟩
    | some d =>
      refine ⟨d.token, _, rfl, ?_⟩
      rw [beginsWith, show d.token.kind = .keyword d.device.keyword from h.1 d rfl]
      cases d.device <;> rfl
  | alignment a => exact ⟨a.keyword, _, rfl, decide_eq_true h.keyword⟩
  | block k title e => exact ⟨k, _, rfl, decide_eq_true h.1⟩
  | direction d =>
    rcases d with ⟨_ | c, k, axis, e⟩
    · refine ⟨k, _, rfl, ?_⟩
      rw [beginsWith, show k.kind = .keyword axis.keyword from h.keyword]
      cases axis <;> rfl
    · have hc := Parse.startsNumber_of_count? (h.count c rfl)
      refine ⟨c.token, _, rfl, ?_⟩
      rw [beginsWith]
      cases hk : c.token.kind <;> rw [hk] at hc <;> first | rfl | exact Bool.noConfusion hc
  | list k title headerEnd c e => exact ⟨k, _, rfl, decide_eq_true h.1⟩
  | item i =>
    rcases i with ⟨kind | l, e⟩
    · refine ⟨_, _, rfl, ?_⟩
      rw [beginsWith, h.content.1]
      cases kind <;> rfl
    · refine ⟨_, _, rfl, ?_⟩
      rw [beginsWith, show l.token.kind = l.kind from h.content]
      cases l <;> rfl

end Row

namespace Parse

variable {rows : List Row} {follow : TokenKind → Bool}

/-- What follows some rows: the next row, or else what comes after all of them. -/
theorem Begins.tokens (hwell : ∀ r ∈ rows, r.IsWellFormed)
    (h : ∀ r ∈ rows.head?, ∀ kind, r.beginsWith kind = true → follow kind = true)
    {rest : List Token} (hrest : Begins follow rest) : Begins follow (Row.tokens rows ++ rest) := by
  cases rows with
  | nil => exact hrest
  | cons r rows =>
    obtain ⟨t, w, hleaves, hbegins⟩ := (hwell r List.mem_cons_self).exists_leaves
    rw [Row.tokens_cons, hleaves]
    exact .cons (h r rfl t.kind hbegins)

theorem startsItem_of_endsElements {kind : TokenKind} (h : kind.endsElements = true) :
    kind.startsItem = false := by
  revert h
  cases kind with
  | keyword k => cases k <;> decide
  | numeral n => exact fun _ => rfl
  | _ => decide

theorem endsElements_of_startsItem {kind : TokenKind} (h : kind.startsItem = true) :
    kind.endsElements = false := by
  cases hends : kind.endsElements with
  | false => rfl
  | true => exact absurd h (by rw [startsItem_of_endsElements hends]; decide)

theorem endsElements_of_endsBlock {kind : TokenKind} (h : kind.endsBlock = true) :
    kind.endsElements = true := by
  rw [TokenKind.endsElements, h, Bool.true_or]

theorem endsBlock_of_endsBlocks {kind : TokenKind} (h : kind.endsBlocks = true) :
    kind.endsBlock = true := by
  rw [TokenKind.endsBlocks, Bool.and_eq_true] at h
  exact h.1

theorem endsBlocks_of_startsPage {kind : TokenKind} (h : kind.startsPage = true) :
    kind.endsBlocks = true := by
  revert h
  cases kind with
  | keyword k => cases k <;> decide
  | numeral n => exact fun h => h
  | _ => decide

/-- A row that is no item begins with a kind that no item begins with. -/
theorem startsItem_of_beginsWith {r : Row} (hr : r.isItem = false) {kind : TokenKind}
    (h : r.beginsWith kind = true) : kind.startsItem = false := by
  cases kind with
  | keyword k =>
    revert h hr
    cases r <;> cases k <;> simp [Row.isItem, Row.beginsWith] <;> decide
  | numeral n => rfl
  | _ =>
    revert h hr
    cases r <;> simp [Row.isItem, Row.beginsWith] <;> decide

/-- An entry begins with a kind that no direction begins with. -/
theorem startsDirection_of_beginsWith {r : Row} (hr : r.isEntry = true) {kind : TokenKind}
    (h : r.beginsWith kind = true) : kind.startsDirection = false := by
  cases kind with
  | keyword k =>
    revert h hr
    cases r <;> cases k <;> simp [Row.isEntry, Row.beginsWith] <;> decide
  | numeral n => cases r <;> first | exact Bool.noConfusion h | exact Bool.noConfusion hr
  | _ =>
    revert h hr
    cases r <;> simp [Row.isEntry, Row.beginsWith] <;> decide

end Parse

end Wireframe
