import Mathlib.Data.List.Perm.Basic
import Mathlib.Data.Nat.Find
import Wireframe.Arrangement

/-!
# Where the blocks of a page stand

The names in the alignments of a page are counted in the order of the source, through all of its
groups, and so are its blocks. A name *claims* a block if it is the first name to say the title of
the block, and the block is the first one with this title (`ClaimsAt`). The blocks of a page are
seated by two rules (`Page.Seated`):

* a block that is claimed stands in the group of the name that claims it, among the blocks that are
  claimed there in the order of their names;
* every other block stays in its own group, after those, in the order of the source.

Main statement, `Page.arrangements_spec`: the arrangements of a page are its groups with
their blocks seated by these rules, but for the groups that are left without blocks. Every
block of the page stands in them exactly once. Where no name is the title of a block, they
are the groups as declared.
-/

namespace Wireframe

/-! ## Claims -/

section Claims

variable {α : Type}

/-- The value `x` is first met at place `i` of a list. -/
def IsFirstAt (xs : List α) (i : Nat) (x : α) : Prop :=
  xs[i]? = some x ∧ ∀ j < i, xs[j]? ≠ some x

namespace IsFirstAt

variable {xs ys : List α} {i j : Nat} {x y : α}

theorem lt_length (h : IsFirstAt xs i x) : i < xs.length :=
  (List.getElem?_eq_some_iff.1 h.1).1

theorem unique (h : IsFirstAt xs i x) (h' : IsFirstAt xs j x) : i = j := by
  rcases Nat.lt_trichotomy i j with hlt | heq | hlt
  · exact absurd h.1 (h'.2 i hlt)
  · exact heq
  · exact absurd h'.1 (h.2 j hlt)

theorem of_mem (h : x ∈ xs) : ∃ i, IsFirstAt xs i x := by
  have hex : ∃ i, xs[i]? = some x := List.mem_iff_getElem?.1 h
  classical
  exact ⟨Nat.find hex, Nat.find_spec hex, fun j hj => Nat.find_min hex hj⟩

theorem append_iff_of_lt (hi : i < xs.length) : IsFirstAt (xs ++ ys) i x ↔ IsFirstAt xs i x := by
  have hbefore : ∀ j ≤ i, (xs ++ ys)[j]? = xs[j]? := fun j hj =>
    List.getElem?_append_left (Nat.lt_of_le_of_lt hj hi)
  rw [IsFirstAt, IsFirstAt, hbefore i (Nat.le_refl i)]
  refine and_congr_right fun _ => forall₂_congr fun j hj => ?_
  rw [hbefore j (Nat.le_of_lt hj)]

/-- In a list with one more value at its end, the first place of a value is where it was, or at the
    end if it was nowhere. -/
theorem concat_iff : IsFirstAt (xs ++ [y]) i x ↔
    IsFirstAt xs i x ∨ (i = xs.length ∧ x = y ∧ y ∉ xs) := by
  rcases Nat.lt_trichotomy i xs.length with hi | rfl | hi
  · rw [append_iff_of_lt hi, or_iff_left fun h => absurd h.1 (Nat.ne_of_lt hi)]
  -- the new value is first at the end if it is nowhere before
  · have hbefore : (∀ j < xs.length, (xs ++ [y])[j]? ≠ some x) ↔ x ∉ xs := by
      rw [List.mem_iff_getElem?, not_exists]
      refine ⟨fun h j hj => ?_, fun h j hj => by rw [List.getElem?_append_left hj]; exact h j⟩
      have hlt := (List.getElem?_eq_some_iff.1 hj).1
      exact h j hlt (by rw [List.getElem?_append_left hlt, hj])
    rw [IsFirstAt, List.getElem?_concat_length, hbefore, Option.some.injEq,
      or_iff_right fun h => absurd h.lt_length (Nat.lt_irrefl _)]
    constructor
    · rintro ⟨rfl, h⟩
      exact ⟨rfl, rfl, h⟩
    · rintro ⟨-, rfl, h⟩
      exact ⟨rfl, h⟩
  · refine iff_of_false (fun h => ?_) ?_
    · have := h.lt_length
      rw [List.length_append, List.length_singleton] at this
      omega
    · rintro (h | ⟨h, -⟩)
      · exact absurd h.lt_length (Nat.not_lt.2 (Nat.le_of_lt hi))
      · exact absurd h (Nat.ne_of_gt hi)

end IsFirstAt

/-- Name number `m` claims block number `i`: no name before it is the title of the block, and no
    block before has this title. -/
def ClaimsAt (titles : List (Option String)) (names : List String) (m i : Nat) : Prop :=
  ∃ name, IsFirstAt names m name ∧ IsFirstAt titles i (some name)

namespace ClaimsAt

variable {titles : List (Option String)} {names more : List String} {name : String} {m n i j : Nat}

theorem unique_name (h : ClaimsAt titles names m i) (h' : ClaimsAt titles names n i) : m = n := by
  obtain ⟨a, ha, hi⟩ := h
  obtain ⟨b, hb, hi'⟩ := h'
  obtain rfl : a = b := Option.some.inj (Option.some.inj (hi.1.symm.trans hi'.1))
  exact ha.unique hb

theorem append_iff_of_lt (hm : m < names.length) :
    ClaimsAt titles (names ++ more) m i ↔ ClaimsAt titles names m i :=
  exists_congr fun _ => and_congr_left fun _ => IsFirstAt.append_iff_of_lt hm

/-- One more name claims the first block with this title, unless the name was said before. -/
theorem concat_iff : ClaimsAt titles (names ++ [name]) m i ↔ ClaimsAt titles names m i ∨
    (m = names.length ∧ IsFirstAt titles i (some name) ∧ name ∉ names) := by
  constructor
  · rintro ⟨a, ha, hi⟩
    rcases IsFirstAt.concat_iff.1 ha with ha | ⟨hm, rfl, hnot⟩
    · exact .inl ⟨a, ha, hi⟩
    · exact .inr ⟨hm, hi, hnot⟩
  · rintro (⟨a, ha, hi⟩ | ⟨hm, hi, hnot⟩)
    · exact ⟨a, IsFirstAt.concat_iff.2 (.inl ha), hi⟩
    · exact ⟨name, IsFirstAt.concat_iff.2 (.inr ⟨hm, rfl, hnot⟩), hi⟩

end ClaimsAt

end Claims

/-! ## Claiming, name by name -/

section Claiming

variable {titles : List (Option String)} {claimed : List Nat}

/-- The blocks in `claimed` are those that some of the names claim. -/
def Taken (titles : List (Option String)) (names : List String) (claimed : List Nat) : Prop :=
  ∀ i, i ∈ claimed ↔ ∃ m, ClaimsAt titles names m i

theorem taken_nil : Taken titles [] [] := fun _ =>
  iff_of_false List.not_mem_nil fun ⟨_, _, h, _⟩ => absurd h.lt_length (Nat.not_lt_zero _)

theorem findIdx?_eq_some_iff_isFirstAt {name : String} {i : Nat} :
    titles.findIdx? (· = some name) = some i ↔ IsFirstAt titles i (some name) := by
  rw [List.findIdx?_eq_some_iff_getElem, IsFirstAt, List.getElem?_eq_some_iff]
  constructor
  · rintro ⟨hi, heq, hbefore⟩
    refine ⟨⟨hi, of_decide_eq_true heq⟩, fun j hj h => ?_⟩
    exact hbefore j hj (decide_eq_true (List.getElem?_eq_some_iff.1 h).2)
  · rintro ⟨⟨hi, heq⟩, hbefore⟩
    refine ⟨hi, decide_eq_true heq, fun j hj h => hbefore j hj ?_⟩
    exact List.getElem?_eq_some_iff.2 ⟨Nat.lt_trans hj hi, of_decide_eq_true h⟩

theorem findIdx?_eq_none_iff_notMem {name : String} :
    titles.findIdx? (· = some name) = none ↔ some name ∉ titles := by
  rw [List.findIdx?_eq_none_iff]
  exact ⟨fun h hmem => of_decide_eq_false (h _ hmem) rfl,
    fun h x hx => decide_eq_false fun heq => h (heq ▸ hx)⟩

/-- A name that is no title, or was said before, claims nothing. -/
theorem Taken.concat_of_not {names : List String} {name : String} (h : Taken titles names claimed)
    (hnot : ∀ i, IsFirstAt titles i (some name) → name ∈ names) :
    Taken titles (names ++ [name]) claimed := by
  intro i
  rw [h i]
  refine exists_congr fun m => ?_
  rw [ClaimsAt.concat_iff, or_iff_left]
  exact fun ⟨_, hi, hnew⟩ => hnew (hnot i hi)

/-- A name that is new and the title of a block takes the first such block. -/
theorem Taken.concat_of_first {names : List String} {name : String} {i : Nat}
    (h : Taken titles names claimed) (hi : IsFirstAt titles i (some name)) (hname : name ∉ names) :
    Taken titles (names ++ [name]) (i :: claimed) := by
  intro j
  have hnew : (IsFirstAt titles j (some name) ∧ name ∉ names) ↔ j = i :=
    ⟨fun hj => hj.1.unique hi, fun hj => ⟨hj ▸ hi, hname⟩⟩
  simp only [List.mem_cons, h j, ClaimsAt.concat_iff, hnew, exists_or, exists_eq_left, or_comm]

/-- A block is taken exactly if its title was said before. -/
theorem Taken.mem_iff {names : List String} {name : String} {i : Nat}
    (h : Taken titles names claimed)
    (hi : IsFirstAt titles i (some name)) : i ∈ claimed ↔ name ∈ names := by
  rw [h i]
  constructor
  · rintro ⟨m, a, ha, hi'⟩
    obtain rfl : a = name := Option.some.inj (Option.some.inj (hi'.1.symm.trans hi.1))
    exact List.mem_iff_getElem?.2 ⟨m, ha.1⟩
  · intro hname
    obtain ⟨m, hm⟩ := IsFirstAt.of_mem hname
    exact ⟨m, name, hm, hi⟩

/-- What some names claim, when the names `before` went before them. -/
structure ClaimedBy (titles : List (Option String)) (before names : List String)
    (own all : List Nat) : Prop where
  taken : Taken titles (before ++ names) all
  mem_own : ∀ i, i ∈ own ↔ ∃ m, before.length ≤ m ∧ ClaimsAt titles (before ++ names) m i
  order : own.Pairwise fun i j => ∀ m n, ClaimsAt titles (before ++ names) m i →
    ClaimsAt titles (before ++ names) n j → m < n

/-- A name that claims nothing is passed over. -/
theorem ClaimedBy.pass {before names : List String} {name : String} {own all : List Nat}
    (h : ClaimedBy titles (before ++ [name]) names own all)
    (hnot : ∀ i, IsFirstAt titles i (some name) → name ∈ before) :
    ClaimedBy titles before (name :: names) own all := by
  obtain ⟨htaken, hown, horder⟩ := h
  rw [List.append_assoc, List.singleton_append] at htaken hown horder
  refine ⟨htaken, fun i => (hown i).trans (exists_congr fun m => and_congr_left fun hm => ?_),
    horder⟩
  rw [List.length_append, List.length_singleton]
  refine ⟨fun h => by omega, fun h => Nat.lt_of_le_of_ne h ?_⟩
  rintro rfl
  obtain ⟨a, ha, hi⟩ := hm
  have hname : a = name := by simpa using ha.1.symm
  subst hname
  obtain ⟨l, hl⟩ := List.mem_iff_getElem?.1 (hnot i hi)
  have hlt := (List.getElem?_eq_some_iff.1 hl).1
  exact ha.2 l hlt (by rw [List.getElem?_append_left hlt, hl])

/-- A name that is new and the title of a block claims the first such block. -/
theorem ClaimedBy.take {before names : List String} {name : String} {own all : List Nat} {i : Nat}
    (h : ClaimedBy titles (before ++ [name]) names own all) (hi : IsFirstAt titles i (some name))
    (hname : name ∉ before) : ClaimedBy titles before (name :: names) (i :: own) all := by
  obtain ⟨htaken, hown, horder⟩ := h
  rw [List.append_assoc, List.singleton_append] at htaken hown horder
  rw [List.length_append, List.length_singleton] at hown
  -- of the names up to this one, it alone claims the block
  have hclaims : ∀ j, ClaimsAt titles (before ++ name :: names) before.length j ↔ j = i := by
    intro j
    rw [← List.singleton_append, ← List.append_assoc, ClaimsAt.append_iff_of_lt (by simp),
      ClaimsAt.concat_iff, or_iff_right fun ⟨_, ha, _⟩ => absurd ha.lt_length (Nat.lt_irrefl _)]
    exact ⟨fun h => h.2.1.unique hi, fun h => ⟨rfl, h ▸ hi, hname⟩⟩
  refine ⟨htaken, fun j => ?_, List.pairwise_cons.2 ⟨fun j hj m n hm hn => ?_, horder⟩⟩
  · rw [List.mem_cons, hown j]
    constructor
    · rintro (rfl | ⟨m, hm, hclaim⟩)
      · exact ⟨_, Nat.le_refl _, (hclaims _).2 rfl⟩
      · exact ⟨m, Nat.le_of_succ_le hm, hclaim⟩
    · rintro ⟨m, hm, hclaim⟩
      rcases Nat.eq_or_lt_of_le hm with rfl | hlt
      · exact .inl ((hclaims j).1 hclaim)
      · exact .inr ⟨m, hlt, hclaim⟩
  · -- what is claimed later is claimed by a later name
    obtain ⟨l, hl, hclaim⟩ := (hown j).1 hj
    rw [hm.unique_name ((hclaims i).2 rfl), hn.unique_name hclaim]
    exact hl

theorem claimedBy_claim (names : List String) :
    ∀ {before : List String} {claimed : List Nat}, Taken titles before claimed →
      ClaimedBy titles before names (claim titles claimed names).1
        (claim titles claimed names).2 := by
  induction names with
  | nil =>
    intro before claimed h
    refine ⟨by rwa [List.append_nil], fun i => ?_, .nil⟩
    refine iff_of_false List.not_mem_nil fun ⟨m, hm, a, ha, _⟩ => ?_
    rw [List.append_nil] at ha
    exact absurd ha.lt_length (Nat.not_lt.2 hm)
  | cons name names ih =>
    intro before claimed h
    -- a name claims a block if it is a title, and is said for the first time
    rw [claim]
    split
    · next i hi =>
      rw [findIdx?_eq_some_iff_isFirstAt] at hi
      split
      · next hmem =>
        have hname : name ∈ before := (h.mem_iff hi).1 (List.contains_iff_mem.1 hmem)
        exact (ih (h.concat_of_not fun _ _ => hname)).pass fun _ _ => hname
      · next hmem =>
        have hname : name ∉ before := fun hn =>
          hmem (List.contains_iff_mem.2 ((h.mem_iff hi).2 hn))
        exact (ih (h.concat_of_first hi hname)).take hi hname
    · next hnone =>
      rw [findIdx?_eq_none_iff_notMem] at hnone
      have hnot : ∀ i, IsFirstAt titles i (some name) → name ∈ before := fun i hi =>
        absurd (List.mem_iff_getElem?.2 ⟨i, hi.1⟩) hnone
      exact (ih (h.concat_of_not hnot)).pass hnot

theorem claim_perm (titles : List (Option String)) (names : List String) : ∀ claimed : List Nat,
    (claim titles claimed names).2.Perm ((claim titles claimed names).1 ++ claimed) := by
  induction names with
  | nil => exact fun claimed => .refl _
  | cons name names ih =>
    intro claimed
    rw [claim]
    split
    · next i _ =>
      split
      · exact ih claimed
      · exact (ih (i :: claimed)).trans List.perm_middle
    · exact ih claimed

theorem nodup_claim (names : List String) : ∀ {claimed : List Nat}, claimed.Nodup →
    (claim titles claimed names).2.Nodup := by
  induction names with
  | nil => exact fun h => h
  | cons name names ih =>
    intro claimed h
    rw [claim]
    split
    · next i _ =>
      split
      · exact ih h
      · next hi => exact ih (List.nodup_cons.2 ⟨fun hmem => hi (List.contains_iff_mem.2 hmem), h⟩)
    · exact ih h

/-- Names that are no titles claim nothing. -/
theorem claim_of_notMem {names : List String} (h : ∀ name ∈ names, some name ∉ titles) :
    claim titles claimed names = ([], claimed) := by
  induction names with
  | nil => rfl
  | cons name names ih =>
    obtain ⟨hname, hnames⟩ := List.forall_mem_cons.1 h
    rw [claim, findIdx?_eq_none_iff_notMem.2 hname]
    exact ih hnames

end Claiming

/-! ## Group by group -/

section Groups

variable {α : Type} {f : BlockGroup → List α} {g : BlockGroup}
  {groups : List BlockGroup} {k n : Nat}

/-- The number of members before group number `k`, where `f` tells the members of a group. -/
def countBefore (f : BlockGroup → List α) (groups : List BlockGroup) (k : Nat) : Nat :=
  ((groups.take k).flatMap f).length

/-- Member number `n`, counted through all groups, is one of group number `k`. -/
def IsMemberOf (f : BlockGroup → List α) (groups : List BlockGroup) (k n : Nat) : Prop :=
  countBefore f groups k ≤ n ∧ n < countBefore f groups (k + 1)

@[simp] theorem countBefore_zero : countBefore f groups 0 = 0 := rfl

@[simp] theorem countBefore_cons_succ :
    countBefore f (g :: groups) (k + 1) = (f g).length + countBefore f groups k := by
  rw [countBefore, List.take_succ_cons, List.flatMap_cons, List.length_append]
  rfl

theorem countBefore_le_succ : countBefore f groups k ≤ countBefore f groups (k + 1) := by
  rw [countBefore, countBefore, List.take_add_one, List.flatMap_append, List.length_append]
  exact Nat.le_add_right _ _

/-- What the names from number `lo` up to number `hi` claim, in the order of the names. -/
structure ClaimedBetween (titles : List (Option String)) (names : List String) (lo hi : Nat)
    (own : List Nat) : Prop where
  mem_iff : ∀ i, i ∈ own ↔ ∃ m, (lo ≤ m ∧ m < hi) ∧ ClaimsAt titles names m i
  order : own.Pairwise fun i j =>
    ∀ m n, ClaimsAt titles names m i → ClaimsAt titles names n j → m < n

variable {titles : List (Option String)} {claimed : List Nat}

/-- What comes after some names does not change what they claim. -/
theorem ClaimedBy.between {before names : List String} {own all : List Nat}
    (h : ClaimedBy titles before names own all) (more : List String) :
    ClaimedBetween titles (before ++ names ++ more) before.length (before ++ names).length own := by
  have hmem : ∀ {i m}, before.length ≤ m ∧ ClaimsAt titles (before ++ names) m i ↔
      (before.length ≤ m ∧ m < (before ++ names).length) ∧
        ClaimsAt titles (before ++ names ++ more) m i := by
    intro i m
    rw [and_assoc]
    refine and_congr_right fun _ => ⟨fun h => ?_, fun h => (ClaimsAt.append_iff_of_lt h.1).1 h.2⟩
    have hlt : m < (before ++ names).length := h.choose_spec.1.lt_length
    exact ⟨hlt, (ClaimsAt.append_iff_of_lt hlt).2 h⟩
  refine ⟨fun i => (h.mem_own i).trans (exists_congr fun m => hmem), ?_⟩
  refine h.order.imp_of_mem fun {i j} hi hj hlt m n hm hn => ?_
  obtain ⟨m', hm'⟩ := (h.mem_own i).1 hi
  obtain ⟨n', hn'⟩ := (h.mem_own j).1 hj
  rw [hm.unique_name (hmem.1 hm').2, hn.unique_name (hmem.1 hn').2]
  exact hlt m' n' hm'.2 hn'.2

theorem claimedBetween_claims (groups : List BlockGroup) :
    ∀ {before : List String} {claimed : List Nat}, Taken titles before claimed →
      (claims titles claimed groups).1.length = groups.length ∧
      Taken titles (before ++ groups.flatMap BlockGroup.names) (claims titles claimed groups).2 ∧
      ∀ k own, (claims titles claimed groups).1[k]? = some own →
        ClaimedBetween titles (before ++ groups.flatMap BlockGroup.names)
          (before.length + countBefore BlockGroup.names groups k)
          (before.length + countBefore BlockGroup.names groups (k + 1)) own := by
  induction groups with
  | nil =>
    intro before claimed h
    rw [List.flatMap_nil, List.append_nil]
    exact ⟨rfl, h, fun k own hk => by cases hk⟩
  | cons g groups ih =>
    intro before claimed h
    have hfirst := claimedBy_claim g.names h
    obtain ⟨hlength, htaken, hown⟩ := ih hfirst.taken
    rw [List.append_assoc, ← List.flatMap_cons] at htaken
    refine ⟨congrArg (· + 1) hlength, htaken, fun k own hk => ?_⟩
    -- the names of the other groups come after those of the first one
    rw [List.flatMap_cons, ← List.append_assoc]
    cases k with
    | zero =>
      obtain rfl : _ = own := Option.some.inj hk
      have hown := hfirst.between (groups.flatMap BlockGroup.names)
      rw [countBefore_cons_succ, countBefore_zero, countBefore_zero, Nat.add_zero]
      rwa [List.length_append] at hown
    | succ k =>
      have hown := hown k own hk
      rw [countBefore_cons_succ, countBefore_cons_succ]
      rwa [List.length_append, Nat.add_assoc, Nat.add_assoc] at hown

theorem claims_perm (titles : List (Option String)) (groups : List BlockGroup) :
    ∀ claimed : List Nat, (claims titles claimed groups).2.Perm
      ((claims titles claimed groups).1.flatten ++ claimed) := by
  induction groups with
  | nil => exact fun claimed => .refl _
  | cons g groups ih =>
    intro claimed
    have hfirst := claim_perm titles g.names claimed
    refine (ih _).trans ((hfirst.append_left _).trans ?_)
    change (_ ++ (_ ++ claimed)).Perm ((_ ++ _) ++ claimed)
    rw [← List.append_assoc]
    exact List.perm_append_comm.append_right claimed

theorem nodup_claims (titles : List (Option String)) (groups : List BlockGroup) :
    ∀ {claimed : List Nat}, claimed.Nodup → (claims titles claimed groups).2.Nodup := by
  induction groups with
  | nil => exact fun h => h
  | cons g groups ih => exact fun h => ih (nodup_claim g.names h)

/-- Names that are no titles claim nothing. -/
theorem claims_of_notMem (h : ∀ name ∈ groups.flatMap BlockGroup.names, some name ∉ titles) :
    claims titles claimed groups = (groups.map fun _ => [], claimed) := by
  induction groups with
  | nil => rfl
  | cons g groups ih =>
    rw [List.flatMap_cons, List.forall_mem_append] at h
    rw [claims, claim_of_notMem h.1]
    dsimp only
    rw [ih h.2]
    rfl

end Groups

/-! ## Seats -/

/-- The places, on the page, of the blocks that stand in a group: of those that the group claims,
    and of those that stay in it. -/
structure Seats where
  claimed : List Nat
  staying : List Nat

/-- The places of the blocks of a group, in order. -/
def Seats.places (s : Seats) : List Nat :=
  s.claimed ++ s.staying

section Seats

variable {claimed : List Nat} {groups : List BlockGroup}

theorem range'_filterMap {α : Type} (xs post : List α) : ∀ pre : List α,
    (List.range' pre.length xs.length).filterMap ((pre ++ (xs ++ post))[·]?) = xs := by
  induction xs with
  | nil => exact fun pre => rfl
  | cons x xs ih =>
    intro pre
    have hhead : (pre ++ (x :: xs ++ post))[pre.length]? = some x := by simp
    rw [List.length_cons, List.range'_succ, List.filterMap_cons_some hhead]
    have := ih (pre ++ [x])
    rw [List.length_append, List.length_singleton, List.append_assoc] at this
    exact congrArg (x :: ·) this

/-- The members of the groups in a row are their seats: what each claims, and its own blocks that
    nobody has claimed. -/
theorem exists_seats (claimed : List Nat) (groups : List BlockGroup) :
    ∀ (own : List (List Nat)) (first : Nat), own.length = groups.length →
      ∃ seats : List Seats, seats.map Seats.claimed = own ∧
        members claimed first (groups.zip own) =
          (groups.zip seats).map (fun gs => (gs.1.flow, gs.2.places)) ∧
        (∀ k s, seats[k]? = some s → s.staying =
          (List.range' (first + countBefore BlockGroup.blocks groups k)
            (countBefore BlockGroup.blocks groups (k + 1) -
              countBefore BlockGroup.blocks groups k)).filter (!claimed.contains ·)) ∧
        seats.flatMap Seats.staying =
          (List.range' first (groups.flatMap BlockGroup.blocks).length).filter
            (!claimed.contains ·) := by
  induction groups with
  | nil =>
    intro own first h
    rw [List.length_nil, List.length_eq_zero_iff] at h
    refine ⟨[], h.symm, rfl, ?_, rfl⟩
    rintro k s ⟨⟩
  | cons g groups ih =>
    rintro (_ | ⟨o, own⟩) first h
    · cases h
    obtain ⟨seats, rfl, hmembers, hstaying, hall⟩ :=
      ih own (first + g.blocks.length) (Nat.succ.inj h)
    let stay := (List.range' first g.blocks.length).filter (!claimed.contains ·)
    -- the first group has what it claims, and what nobody claims of its own blocks
    refine ⟨⟨o, stay⟩ :: seats, rfl, ?_, fun k s hs => ?_, ?_⟩
    · rw [List.zip_cons_cons, members, hmembers]
      rfl
    · cases k with
      | zero =>
        obtain rfl := Option.some.inj hs
        rw [countBefore_cons_succ, countBefore_zero, Nat.sub_zero, Nat.add_zero]
        rfl
      | succ k =>
        rw [hstaying k s hs, countBefore_cons_succ, countBefore_cons_succ, Nat.add_sub_add_left,
          Nat.add_assoc]
    · rw [List.flatMap_cons, hall, List.flatMap_cons, List.length_append, ← List.range'_append,
        List.filter_append, Nat.one_mul]

/-- Every place is taken once: by a claim, or else by the block that was declared there. -/
theorem flatMap_places_perm {seats : List Seats} {n : Nat}
    (hclaimed : claimed.Perm (seats.flatMap Seats.claimed)) (hnodup : claimed.Nodup)
    (hlt : ∀ i ∈ claimed, i < n)
    (hstaying : seats.flatMap Seats.staying = (List.range' 0 n).filter (!claimed.contains ·)) :
    (seats.flatMap Seats.places).Perm (List.range n) := by
  have hfilter : claimed.Perm ((List.range n).filter (claimed.contains ·)) := by
    refine (List.perm_ext_iff_of_nodup hnodup (List.nodup_range.filter _)).2 fun i => ?_
    rw [List.mem_filter, List.mem_range, List.contains_iff_mem, iff_and_self]
    exact hlt i
  refine (List.flatMap_append_perm seats Seats.claimed Seats.staying).symm.trans ?_
  rw [hstaying, ← List.range_eq_range']
  exact ((hclaimed.symm.trans hfilter).append_right _).trans (List.filter_append_perm _ _)

/-- Where nothing is claimed, groups have the blocks that they declare. -/
theorem members_of_none (groups : List BlockGroup) : ∀ pre : List Block,
    ((members [] pre.length (groups.zip (groups.map fun _ => []))).filter (!·.2.isEmpty)).map
        (fun fp => Arrangement.mk fp.1
          (fp.2.filterMap ((pre ++ groups.flatMap BlockGroup.blocks)[·]?))) =
      (groups.filter (!·.blocks.isEmpty)).map BlockGroup.arrangement := by
  induction groups with
  | nil => exact fun pre => rfl
  | cons g groups ih =>
    intro pre
    have hrest := ih (pre ++ g.blocks)
    rw [List.length_append, List.append_assoc] at hrest
    -- all blocks of the first group stay, so it is empty only without any
    have hstay :
        (List.range' pre.length g.blocks.length).filter (fun i => !([] : List Nat).contains i) =
        List.range' pre.length g.blocks.length := List.filter_true _
    have hempty : (List.range' pre.length g.blocks.length).isEmpty = g.blocks.isEmpty := by
      rw [Bool.eq_iff_iff, List.isEmpty_iff, List.isEmpty_iff, List.range'_eq_nil_iff,
        List.length_eq_zero_iff]
    rw [List.map_cons, List.zip_cons_cons, members, hstay, List.nil_append, List.filter_cons,
      List.filter_cons]
    dsimp only
    rw [hempty, List.flatMap_cons]
    cases hg : g.blocks.isEmpty with
    | true => exact hrest
    | false =>
      exact List.cons_eq_cons.2 ⟨congrArg (Arrangement.mk g.flow) (range'_filterMap ..), hrest⟩

end Seats

/-! ## The arrangements of a page -/

namespace Page

variable {p : Page}

/-- Every name in the alignments of a page, in the order of the source. -/
def names (p : Page) : List String :=
  p.groups.flatMap BlockGroup.names

/-- Name number `m` of a page claims its block number `i`: it is the first name to say the title of
    the block, which is the first block with this title. -/
def Claims (p : Page) (m i : Nat) : Prop :=
  ClaimsAt p.blockTitles p.names m i

/-- The blocks in group number `k` are seated by the rules. -/
structure Seated (p : Page) (k : Nat) (s : Seats) : Prop where
  /-- The group claims what its own names claim. -/
  mem_claimed : ∀ i, i ∈ s.claimed ↔ ∃ m, IsMemberOf BlockGroup.names p.groups k m ∧ p.Claims m i
  /-- What the group claims stands in the order of the names. -/
  claimed_order : s.claimed.Pairwise fun i j => ∀ m n, p.Claims m i → p.Claims n j → m < n
  /-- What stays in the group is what it declares and no name claims. -/
  mem_staying : ∀ i, i ∈ s.staying ↔
    IsMemberOf BlockGroup.blocks p.groups k i ∧ ∀ m, ¬ p.Claims m i
  /-- What stays in the group stands in the order of the source. -/
  staying_order : s.staying.Pairwise (· < ·)

/-- The groups of a page that have blocks, with the seats of these. -/
def seatedGroups (p : Page) (seats : List Seats) : List (BlockGroup × Seats) :=
  (p.groups.zip seats).filter (!·.2.places.isEmpty)

/-- A group without blocks takes up no place. -/
theorem places_seatedGroups {seats : List Seats} (h : seats.length = p.groups.length) :
    (p.seatedGroups seats).flatMap (·.2.places) = seats.flatMap Seats.places := by
  have hsnd : seats = (p.groups.zip seats).map Prod.snd :=
    (List.map_snd_zip (Nat.le_of_eq h)).symm
  conv_rhs => rw [hsnd]
  rw [seatedGroups, List.flatMap_map]
  induction p.groups.zip seats with
  | nil => rfl
  | cons gs rest ih =>
    rw [List.filter_cons, List.flatMap_cons, ← ih]
    cases hempty : gs.2.places.isEmpty with
    | true => rw [List.isEmpty_iff.1 hempty]; rfl
    | false => rfl

/-- The arrangement of a group with its seats. -/
def arrangementOf (p : Page) (gs : BlockGroup × Seats) : Arrangement :=
  ⟨gs.1.flow, gs.2.places.filterMap (p.blocks[·]?)⟩

theorem lt_length_of_claims {m i : Nat} (h : p.Claims m i) : i < p.blocks.length := by
  obtain ⟨name, -, hi⟩ := h
  have := hi.lt_length
  rwa [blockTitles, List.length_map] at this

/-- The seats of a page, one for each group, that take up every place once. -/
theorem exists_seated (p : Page) : ∃ seats : List Seats, seats.length = p.groups.length ∧
    (∀ k s, seats[k]? = some s → p.Seated k s) ∧
    (seats.flatMap Seats.places).Perm (List.range p.blocks.length) ∧
    p.placements = ((p.groups.zip seats).map fun gs => (gs.1.flow, gs.2.places)).filter
      (!·.2.isEmpty) := by
  obtain ⟨hlength, htaken, hown⟩ := claimedBetween_claims p.groups
    (show Taken p.blockTitles [] [] from taken_nil)
  have hperm := claims_perm p.blockTitles p.groups []
  have hnodup := nodup_claims p.blockTitles p.groups List.nodup_nil
  rw [List.append_nil] at hperm
  rw [placements]
  generalize claims p.blockTitles [] p.groups = r at *
  obtain ⟨own, all⟩ := r
  obtain ⟨seats, rfl, hmembers, hstaying, hstay⟩ := exists_seats all p.groups own 0 hlength
  rw [List.length_map] at hlength
  refine ⟨seats, hlength, fun k s hs => ?_, flatMap_places_perm hperm hnodup (fun i hi => ?_) hstay,
    by rw [← hmembers]⟩
  · obtain ⟨hmem, horder⟩ := hown k s.claimed (by rw [List.getElem?_map, hs]; rfl)
    rw [List.length_nil, Nat.zero_add, Nat.zero_add] at hmem
    refine ⟨hmem, horder, fun i => ?_, ?_⟩
    · have hle : countBefore BlockGroup.blocks p.groups k ≤
          countBefore BlockGroup.blocks p.groups (k + 1) := countBefore_le_succ
      have htaken' : i ∈ all ↔ ∃ m, p.Claims m i := htaken i
      -- a block is claimed exactly if it is among those taken in the end
      rw [hstaying k s hs, List.mem_filter, List.mem_range'_1, Nat.zero_add,
        Nat.add_sub_cancel' hle, Bool.not_eq_true', List.contains_eq_mem, decide_eq_false_iff_not,
        htaken', not_exists]
      rfl
    · rw [hstaying k s hs]
      exact (List.pairwise_lt_range' ..).filter _
  · obtain ⟨m, hm⟩ := (htaken i).1 hi
    exact lt_length_of_claims hm

/-- The arrangements of a page are its groups with their blocks seated by the rules, without those
    that are left without blocks, and every block stands in them once. Where no name is the title of
    a block, they are the groups as declared. -/
theorem arrangements_spec (p : Page) :
    (∃ seats : List Seats, seats.length = p.groups.length ∧
      (∀ k s, seats[k]? = some s → p.Seated k s) ∧
      p.arrangements = (p.seatedGroups seats).map p.arrangementOf ∧
      ((p.seatedGroups seats).flatMap (·.2.places)).Perm (List.range p.blocks.length)) ∧
    ((∀ name ∈ p.names, some name ∉ p.blockTitles) →
      p.arrangements = (p.groups.filter (!·.blocks.isEmpty)).map BlockGroup.arrangement) := by
  constructor
  · obtain ⟨seats, hlength, hseated, hperm, hplacements⟩ := p.exists_seated
    refine ⟨seats, hlength, hseated, ?_, ?_⟩
    · rw [arrangements, hplacements, List.filter_map, List.map_map]
      rfl
    · rwa [places_seatedGroups hlength]
  · intro h
    rw [arrangements, placements, claims_of_notMem h]
    exact members_of_none p.groups []

/-- A page with the given groups: what the alignment of each names, and the titles of its blocks. -/
def sketch (groups : List (List String × List String)) : Page :=
  let token : Token := ⟨.lineEnd, "", .origin⟩
  let quoted (text : String) : Token := ⟨.quotation, "\"" ++ text ++ "\"", .origin⟩
  let alignment (names : List String) : Alignment :=
    ⟨token, names.map fun name => .quotation (quoted name), [], token, ⟨none, token, .row, token⟩⟩
  let block (title : String) : Block := ⟨token, some (.quotation (quoted title)), token, []⟩
  ⟨none, token, .quotation token, token,
    groups.map fun (names, titles) => ⟨some (alignment names), titles.map block, []⟩⟩

/-- An alignment with a name that no block has, and one that leads no block. -/
theorem arrangements_spec_misnamed :
    let p := sketch [(["Goods"], ["Form"]), ([], [])]
    (∀ name ∈ p.names, some name ∉ p.blockTitles) ∧
      p.arrangements = (p.groups.filter (!·.blocks.isEmpty)).map BlockGroup.arrangement :=
  ⟨by decide, (arrangements_spec (sketch [(["Goods"], ["Form"]), ([], [])])).2 (by decide)⟩

-- the second group names both blocks, but the first one has already claimed the second block
example : (sketch [(["B"], ["A"]), (["B", "A"], ["B"])]).placements.map Prod.snd = [[1], [0]] := by
  decide

end Page

end Wireframe
