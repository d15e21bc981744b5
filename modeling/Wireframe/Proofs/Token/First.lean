import Mathlib.Data.List.Nodup
import Wireframe.Proofs.Token.Longest

/-!
# First characters

A text of a shape begins with one of a few characters (`Shape.begins_of_length?`), so the first
character of a place leaves few of the terminals that all locales share. It leaves one of them at
most, but for blanks and line ends, which can begin alike (`Terminal.kind_of_begins`). Where it
leaves one only, the longest match of shared terminals is what that one matches
(`longestMatch?_of_begins`).
-/

namespace Wireframe

open Text

theorem nonempty_eq_some_iff {n m : Nat} : nonempty n = some m ↔ n = m ∧ n ≠ 0 := by
  rw [nonempty]
  split
  · next h => simp [h]
  · next h => simp [h]

/-- There are no letters up to the digits. -/
theorem isLetter_of_le {c : Char} (h : c ≤ '9') : isLetter c = false := by
  have hlt : c.toNat < 0x41 := Nat.lt_of_le_of_lt h (by decide)
  rw [isLetter, letterRanges, inRanges, if_pos hlt]

namespace Shape

variable {c : Char} {rest : List Char} {n : Nat}

/-- Whether a text of a shape can begin with a character; words are not told apart. -/
def begins : Shape → Char → Bool
  | lineEnd, c => isLineTail c || isBreak c
  | blanks, c => isBlank c && !isBreak c
  | comment, c => c = '/'
  | number, c => c = '-' || ('0' ≤ c && c ≤ '9')
  | quotation, c => isQuotationMark c
  | placeholder, c => c = '<'
  | single d, c => c = d
  | word _, _ => true
  | freeText, c => isFree c || c = '/'

theorem wholeLength_cons (c : Char) (rest : List Char) : wholeLength (c :: rest) =
    if c = '0' then 1 else if '1' ≤ c && c ≤ '9' then 1 + digitsLength rest else 0 := by
  rw [wholeLength.eq_def]
  split
  · next h => rw [if_pos (List.cons.inj h).1]
  · next hzero h =>
    obtain ⟨rfl, rfl⟩ := List.cons.inj h
    rw [if_neg hzero]
  · next h => cases h

/-- A whole number begins with a digit. -/
theorem digit_of_wholeLength (h : wholeLength (c :: rest) ≠ 0) : '0' ≤ c ∧ c ≤ '9' := by
  rw [wholeLength_cons] at h
  split at h
  · next hzero => subst hzero; decide
  · split at h
    · next hdigit =>
      rw [Bool.and_eq_true, decide_eq_true_eq, decide_eq_true_eq] at hdigit
      exact ⟨Char.le_trans (by decide) hdigit.1, hdigit.2⟩
    · exact absurd rfl h

theorem begins_of_lineEndLength? (h : lineEndLength? (c :: rest) = some n) : lineEnd.begins c := by
  obtain ⟨k, hk, -⟩ := Option.map_eq_some_iff.1 h
  cases htail : isLineTail c with
  | true => rw [begins, htail, Bool.true_or]
  | false =>
    -- there is nothing before the line break
    rw [List.takeWhile_cons_of_neg (by rw [htail]; exact Bool.false_ne_true), List.length_nil,
      List.drop_zero, lineBreakLength?.eq_def] at hk
    split at hk
    · next heq => rw [(List.cons.inj heq).1]; rfl
    · next heq => rw [(List.cons.inj heq).1]; rfl
    · cases hk

theorem begins_of_blanksLength (h : blanksLength (c :: rest) ≠ 0) : blanks.begins c := by
  rw [blanksLength, List.takeWhile_cons] at h
  split at h
  · next hc => exact hc
  · exact absurd rfl h

theorem begins_of_numberLength (h : numberLength (c :: rest) ≠ 0) : number.begins c := by
  by_cases hsign : c = '-'
  · rw [begins, hsign]
    rfl
  · have hwhole : wholeLength (c :: rest) ≠ 0 := by
      refine fun hzero => h ?_
      rw [numberLength, List.drop_zero, if_pos hzero]
      exact fun _ heq => hsign (List.cons.inj heq).1
    simpa [begins] using Or.inr (digit_of_wholeLength hwhole)

theorem begins_of_freeTextLength (h : freeTextLength (c :: rest) ≠ 0) : freeText.begins c := by
  by_cases hslash : c = '/'
  · rw [begins, hslash]
    rfl
  · rw [freeTextLength.eq_def] at h
    split at h
    · exact absurd rfl h
    · exact absurd rfl h
    · next heq => exact absurd (List.cons.inj heq).1 hslash
    · next heq =>
      obtain ⟨rfl, rfl⟩ := List.cons.inj heq
      split at h
      · next hfree => rw [begins, hfree, Bool.true_or]
      · exact absurd rfl h

/-- What is matched begins as its shape can. -/
theorem begins_of_length? {s : Shape} (h : s.length? (c :: rest) = some n) : s.begins c := by
  -- one case per shape; a word may begin with anything here
  cases s with
  | lineEnd => exact begins_of_lineEndLength? h
  | blanks => exact begins_of_blanksLength (nonempty_eq_some_iff.1 h).2
  | comment =>
    rw [length?, commentLength?.eq_def] at h
    split at h
    · next heq => exact decide_eq_true (List.cons.inj heq).1
    · cases h
  | number => exact begins_of_numberLength (nonempty_eq_some_iff.1 h).2
  | quotation =>
    rw [length?, quotationLength?] at h
    split at h
    · next hmark => exact hmark
    · cases h
  | placeholder =>
    rw [length?, placeholderLength?.eq_def] at h
    split at h
    · next heq => exact decide_eq_true (List.cons.inj heq).1
    · cases h
  | single d =>
    rw [length?] at h
    split at h
    · next heq => exact decide_eq_true (Option.some.inj heq)
    · cases h
  | word => rfl
  | freeText => exact begins_of_freeTextLength (nonempty_eq_some_iff.1 h).2

theorem length?_eq_none {s : Shape} (h : s.begins c = false) : s.length? (c :: rest) = none := by
  cases hlength : s.length? (c :: rest) with
  | none => rfl
  | some n => exact absurd (begins_of_length? hlength) (Bool.eq_false_iff.1 h)

end Shape

/-! ## Shared terminals -/

/-- The kind of shared terminal that a character begins, if it begins any; of the line end and
    blanks, which can begin alike, it is blanks. -/
def leader (c : Char) : TokenKind :=
  if isBlank c || c = '?' then .blanks
  else if c = '/' then .comment
  else if c = '-' || ('0' ≤ c && c ≤ '9') then .number
  else if Shape.isQuotationMark c then .quotation
  else if c = '<' then .placeholder
  else if c = ',' then .comma
  else .colon

theorem leader_of_isBlank {c : Char} (h : isBlank c) : leader c = .blanks := by
  rw [leader, if_pos (by rw [h]; rfl)]

theorem leader_of_digit {c : Char} (h : '0' ≤ c ∧ c ≤ '9') : leader c = .number := by
  have hblank : isBlank c = false := by
    refine Bool.eq_false_iff.2 fun hblank => ?_
    exact forall_blank (p := fun c => ¬ ('0' ≤ c ∧ c ≤ '9')) (by decide) hblank h
  have hne : ∀ d : Char, ¬ ('0' ≤ d ∧ d ≤ '9') → c ≠ d := by
    rintro d hd rfl
    exact hd h
  rw [leader, if_neg (by simp [hblank, hne '?' (by decide)]), if_neg (hne '/' (by decide)),
    if_pos (by simp [h])]

namespace Terminal

variable {text rest : List Char} {c : Char} {t u : Terminal} {n : Nat}

theorem eq_of_kind_eq (ht : t ∈ shared) (hu : u ∈ shared) (h : t.kind = u.kind) : t = u :=
  List.inj_on_of_nodup_map (by decide) ht hu h

/-- A character that can begin a shared terminal tells its kind, but for line ends and blanks. -/
theorem kind_of_begins (ht : t ∈ shared) (h : t.shape.begins c) :
    t.kind = leader c ∨ t = ⟨.lineEnd, .lineEnd⟩ ∧ leader c = .blanks := by
  simp only [shared, List.mem_cons, List.not_mem_nil, or_false] at ht
  rcases ht with rfl | rfl | rfl | rfl | rfl | rfl | rfl | rfl <;>
    simp only [Shape.begins, Shape.isLineTail, Shape.isBreak, Shape.isQuotationMark,
      Bool.or_eq_true, Bool.and_eq_true, decide_eq_true_eq] at h
  · refine .inr ⟨rfl, ?_⟩
    rcases h with ((rfl | rfl) | rfl) | rfl | rfl <;> decide
  · exact .inl (leader_of_isBlank h.1).symm
  · exact .inl (h.symm ▸ rfl)
  · rcases h with rfl | hdigit
    · exact .inl rfl
    · exact .inl (leader_of_digit hdigit).symm
  · rcases h with (rfl | rfl) | rfl <;> exact .inl rfl
  all_goals exact .inl (h.symm ▸ rfl)

/-- Shared terminals do not begin with letters. -/
theorem isLetter_of_begins (ht : t ∈ shared) (h : t.shape.begins c) : isLetter c = false := by
  simp only [shared, List.mem_cons, List.not_mem_nil, or_false] at ht
  rcases ht with rfl | rfl | rfl | rfl | rfl | rfl | rfl | rfl <;>
    simp only [Shape.begins, Shape.isLineTail, Shape.isBreak, Shape.isQuotationMark,
      Bool.or_eq_true, Bool.and_eq_true, decide_eq_true_eq] at h
  · rcases h with ((rfl | rfl) | rfl) | rfl | rfl <;> decide
  · exact isLetter_of_isBlank h.1
  · exact h ▸ by decide
  · exact isLetter_of_le (h.elim (fun heq => heq ▸ by decide) And.right)
  · rcases h with (rfl | rfl) | rfl <;> decide
  all_goals exact h ▸ by decide

/-- What a shared terminal matches begins as its shape can. -/
theorem exists_cons_of_length? (ht : t ∈ shared) (h : t.shape.length? text = some n) :
    ∃ c rest, text = c :: rest ∧ t.shape.begins c := by
  cases text with
  | nil =>
    have hnil : ∀ t ∈ shared, t.shape.length? [] = none := by decide
    rw [hnil t ht] at h
    cases h
  | cons c rest => exact ⟨c, rest, rfl, Shape.begins_of_length? h⟩

end Terminal

/-! ## The longest match -/

section Longest

variable {terminals : List Terminal} {text rest : List Char} {c : Char} {t : Terminal}

/-- Where no other terminal matches, the longest match is what the one left matches. -/
theorem longestMatch?_of_forall_ne (ht : t ∈ terminals)
    (h : ∀ u ∈ terminals, u ≠ t → u.shape.length? text = none) :
    longestMatch? terminals text = (t.shape.length? text).map (t.kind, ·) := by
  cases hfound : longestMatch? terminals text with
  | none =>
    rw [longestMatch?_eq_none_iff.1 hfound t ht]
    rfl
  | some found =>
    obtain ⟨⟨u, hu, hkind, hlength⟩, -⟩ := longestMatch?_eq_some hfound
    obtain rfl : u = t := by
      by_contra hne
      rw [h u hu hne] at hlength
      cases hlength
    rw [hlength, Option.map_some, hkind]

/-- Where one shared terminal only can begin, the longest match is what it matches. -/
theorem longestMatch?_of_begins (ht : t ∈ Terminal.shared)
    (h : ∀ u ∈ Terminal.shared, u.shape.begins c → u.kind = t.kind) :
    longestMatch? Terminal.shared (c :: rest) = (t.shape.length? (c :: rest)).map (t.kind, ·) := by
  refine longestMatch?_of_forall_ne ht fun u hu hne => Shape.length?_eq_none ?_
  exact Bool.eq_false_iff.2 fun hbegins => hne (Terminal.eq_of_kind_eq hu ht (h u hu hbegins))

end Longest

end Wireframe
