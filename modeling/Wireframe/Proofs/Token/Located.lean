import Wireframe.Proofs.Token.Lossless

/-!
# Tokens that are located in a text

Tokens are *located* in a text (`IsLocated`) when none is empty, each ends before the next one
begins, and the positions at their ends are those that the text has at their offsets. The tokens of
a lexing are located in the text that was lexed (`Lexing.isLocated_tokens`), and tokens that are
left out change nothing for the others.

A later offset of a text has a later position (`isLE_positionAt`). So where the spans of two ranges
nest, the ranges nest (`Range.IsPlaced.isWithin`). The bounding box of some ranges is their hull: it
begins where the first of them begins and stops where the last one stops
(`Range.isHull_boundingBox`).
-/

namespace Wireframe

/-! ## Positions -/

namespace Position

variable {p q r : Position}

theorem isLE_order_iff :
    (p.order q).isLE ↔ p.line < q.line ∨ p.line = q.line ∧ p.column ≤ q.column := by
  rw [order, Ordering.isLE_then_iff_or, Nat.compare_eq_lt, Nat.compare_eq_eq, Nat.isLE_compare]

theorem isLE_order_step (p : Position) (c : Char) : (p.order (p.step c)).isLE := by
  rw [isLE_order_iff, step]
  split
  · exact .inl (Nat.lt_succ_self _)
  · exact .inr ⟨rfl, Nat.le_succ _⟩

theorem isLE_order_trans (hpq : (p.order q).isLE) (hqr : (q.order r).isLE) : (p.order r).isLE := by
  rw [isLE_order_iff] at *
  omega

/-- A position only goes on with the text. -/
theorem isLE_order_advance (p : Position) (text : List Char) : (p.order (p.advance text)).isLE := by
  induction text generalizing p with
  | nil => exact isLE_order_iff.2 (.inr ⟨rfl, Nat.le_refl _⟩)
  | cons c text ih => exact isLE_order_trans (p.isLE_order_step c) (ih (p.step c))

end Position

/-- The text up to a later offset goes on from the text up to an earlier one. -/
theorem Span.sliceFrom_prefix {a b : Nat} (h : a ≤ b) (offset : Nat) (text : List Char) :
    sliceFrom ⟨0, a⟩ offset text <+: sliceFrom ⟨0, b⟩ offset text := by
  induction text generalizing offset with
  | nil => exact List.prefix_rfl
  | cons c text ih =>
    by_cases hoffset : offset < a
    · have hb : offset < b := Nat.lt_of_lt_of_le hoffset h
      simpa [sliceFrom, contains, hoffset, hb] using ih _
    · rw [sliceFrom_of_le (Nat.le_of_not_lt hoffset)]
      exact List.nil_prefix

/-- The position that a text has at an offset. -/
def positionAt (text : List Char) (offset : Nat) : Position :=
  Position.start.advance (Span.slice ⟨0, offset⟩ text)

/-- A later offset has a later position. -/
theorem isLE_positionAt (text : List Char) {a b : Nat} (h : a ≤ b) :
    ((positionAt text a).order (positionAt text b)).isLE := by
  obtain ⟨more, hmore⟩ := Span.sliceFrom_prefix h 0 text
  rw [positionAt, positionAt, Span.slice, Span.slice, ← hmore, Position.advance_append]
  exact Position.isLE_order_advance _ more

/-! ## Ranges -/

namespace Range

/-- The positions of a range are those that the text has at its offsets. -/
structure IsPlaced (text : List Char) (r : Range) : Prop where
  start : r.start = positionAt text r.span.start
  stop : r.stop = positionAt text r.span.stop

/-- A range neither begins before another one nor stops after it, by offsets and by positions. -/
structure IsWithin (r s : Range) : Prop where
  start : s.span.start ≤ r.span.start
  stop : r.span.stop ≤ s.span.stop
  start_position : (s.start.order r.start).isLE
  stop_position : (r.stop.order s.stop).isLE

/-- In one text, offsets tell which range is within which. -/
theorem IsPlaced.isWithin {text : List Char} {r s : Range} (hr : r.IsPlaced text)
    (hs : s.IsPlaced text) (hstart : s.span.start ≤ r.span.start)
    (hstop : r.span.stop ≤ s.span.stop) : r.IsWithin s where
  start := hstart
  stop := hstop
  start_position := by
    rw [hs.start, hr.start]
    exact isLE_positionAt text hstart
  stop_position := by
    rw [hr.stop, hs.stop]
    exact isLE_positionAt text hstop

/-- A range that begins with the first and stops with the last of some ranges. -/
structure IsHull (ranges : List Range) (box : Range) : Prop where
  first : ∃ r ∈ ranges, box.span.start = r.span.start ∧ box.start = r.start
  last : ∃ r ∈ ranges, box.span.stop = r.span.stop ∧ box.stop = r.stop
  start_le : ∀ r ∈ ranges, box.span.start ≤ r.span.start
  le_stop : ∀ r ∈ ranges, r.span.stop ≤ box.span.stop

namespace IsHull

variable {ranges : List Range} {box : Range}

theorem singleton (r : Range) : IsHull [r] r where
  first := ⟨r, List.mem_cons_self, rfl, rfl⟩
  last := ⟨r, List.mem_cons_self, rfl, rfl⟩
  start_le := by simp
  le_stop := by simp

theorem start_hull (r s : Range) :
    (r.hull s).span.start = min s.span.start r.span.start ∧
      (r.hull s).start = if s.span.start < r.span.start then s.start else r.start := by
  by_cases h : s.span.start < r.span.start <;> simp [hull, h] <;> omega

theorem stop_hull (r s : Range) :
    (r.hull s).span.stop = max s.span.stop r.span.stop ∧
      (r.hull s).stop = if s.span.stop > r.span.stop then s.stop else r.stop := by
  by_cases h : r.span.stop < s.span.stop <;> simp [hull, h] <;> omega

/-- One more range can move either end. -/
theorem concat (h : IsHull ranges box) (r : Range) : IsHull (ranges ++ [r]) (box.hull r) := by
  obtain ⟨a, ha, hstart, hfirst⟩ := h.first
  obtain ⟨b, hb, hstop, hlast⟩ := h.last
  have hr : r ∈ ranges ++ [r] := List.mem_append_right _ List.mem_cons_self
  refine ⟨?_, ?_, fun s hs => ?_, fun s hs => ?_⟩
  · rw [(start_hull box r).1, (start_hull box r).2]
    split
    · exact ⟨r, hr, by omega, rfl⟩
    · exact ⟨a, List.mem_append_left _ ha, by omega, hfirst⟩
  · rw [(stop_hull box r).1, (stop_hull box r).2]
    split
    · exact ⟨r, hr, by omega, rfl⟩
    · exact ⟨b, List.mem_append_left _ hb, by omega, hlast⟩
  · rw [(start_hull box r).1]
    rcases List.mem_append.1 hs with hs | hs
    · exact Nat.le_trans (Nat.min_le_right _ _) (h.start_le s hs)
    · exact List.mem_singleton.1 hs ▸ Nat.min_le_left _ _
  · rw [(stop_hull box r).1]
    rcases List.mem_append.1 hs with hs | hs
    · exact Nat.le_trans (h.le_stop s hs) (Nat.le_max_right _ _)
    · exact List.mem_singleton.1 hs ▸ Nat.le_max_left _ _

theorem foldl (h : IsHull ranges box) (more : List Range) :
    IsHull (ranges ++ more) (more.foldl hull box) := by
  induction more generalizing ranges box with
  | nil => rwa [List.append_nil]
  | cons r more ih => simpa using ih (h.concat r)

/-- A hull has the positions of a text if the ranges have them. -/
theorem isPlaced {text : List Char} (h : IsHull ranges box)
    (hranges : ∀ r ∈ ranges, r.IsPlaced text) : box.IsPlaced text := by
  obtain ⟨a, ha, hstart, hfirst⟩ := h.first
  obtain ⟨b, hb, hstop, hlast⟩ := h.last
  constructor
  · rw [hfirst, hstart, (hranges a ha).start]
  · rw [hlast, hstop, (hranges b hb).stop]

/-- The hull of some of the ranges lies in the hull of all. -/
theorem isWithin {text : List Char} {some : List Range} {part : Range} (h : IsHull ranges box)
    (hpart : IsHull some part) (hsub : some ⊆ ranges) (hranges : ∀ r ∈ ranges, r.IsPlaced text) :
    part.IsWithin box := by
  obtain ⟨a, ha, hstart, -⟩ := hpart.first
  obtain ⟨b, hb, hstop, -⟩ := hpart.last
  refine (hpart.isPlaced fun r hr => hranges r (hsub hr)).isWithin (h.isPlaced hranges) ?_ ?_
  · exact hstart ▸ h.start_le a (hsub ha)
  · exact hstop ▸ h.le_stop b (hsub hb)

/-- Ranges that all come before others have a hull before theirs. -/
theorem stop_le {others : List Range} {other : Range} (h : IsHull ranges box)
    (hother : IsHull others other)
    (hbefore : ∀ r ∈ ranges, ∀ s ∈ others, r.span.stop ≤ s.span.start) :
    box.span.stop ≤ other.span.start := by
  obtain ⟨b, hb, hstop, -⟩ := h.last
  obtain ⟨a, ha, hstart, -⟩ := hother.first
  exact hstop ▸ hstart ▸ hbefore b hb a ha

end IsHull

/-- The bounding box of some ranges is their hull. -/
theorem isHull_boundingBox {ranges : List Range} (h : ranges ≠ []) :
    IsHull ranges ((boundingBox? ranges).getD .origin) := by
  cases ranges with
  | nil => exact absurd rfl h
  | cons r ranges => exact (IsHull.singleton r).foldl ranges

end Range

/-! ## Located tokens -/

/-- Tokens that are not empty and stand one after the other in a text, which has the
    positions at their ends. -/
structure IsLocated (text : List Char) (tokens : List Token) : Prop where
  nonempty : ∀ t ∈ tokens, t.range.span.start < t.range.span.stop
  apart : tokens.Pairwise fun t u => t.range.span.stop ≤ u.range.span.start
  placed : ∀ t ∈ tokens, t.range.IsPlaced text

theorem IsLocated.sublist {text : List Char} {tokens some : List Token}
    (h : IsLocated text tokens) (hsub : some.Sublist tokens) : IsLocated text some where
  nonempty t ht := h.nonempty t (hsub.subset ht)
  apart := h.apart.sublist hsub
  placed t ht := h.placed t (hsub.subset ht)

namespace Lexing

theorem isPlaced_of_mem {locale : Locale} {text : List Char} :
    ∀ t ∈ (ofText locale text).tokens ++ (ofText locale text).comments, t.range.IsPlaced text :=
  fun t ht =>
    have hexact := (isSegmented_segmentsOf locale text).isExact t ht
    ⟨hexact.2.1, hexact.2.2⟩

/-- The tokens that a lexer takes from a text are located in it. -/
theorem isLocated_tokens (locale : Locale) (text : List Char) :
    IsLocated text (ofText locale text).tokens := by
  obtain ⟨all, hsub, htokens, -⟩ := isSifted_sift .fresh (locate 0 .start (locale.pieces text))
  obtain ⟨hnonempty, hapart⟩ :=
    apart_locate (image_ne_nil_of_mem_cut locale.regularTerminals text) 0 .start
  have hsome : ((ofText locale text).tokens.map Token.range).Sublist
      ((locate 0 .start (locale.pieces text)).map Prod.snd) := by
    refine List.Sublist.trans ?_ hsub
    rw [show (ofText locale text).tokens = _ from htokens]
    exact List.filter_sublist.map _
  refine ⟨fun t ht => ?_, List.pairwise_map.1 (hapart.sublist hsome), fun t ht => ?_⟩
  · exact (hnonempty _ (hsome.subset (List.mem_map_of_mem ht))).2
  · exact isPlaced_of_mem t (List.mem_append_left _ ht)

end Lexing

end Wireframe
