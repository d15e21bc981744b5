import Mathlib.Data.List.Induction
import Wireframe.Proofs.Token.Spelling

/-!
# The longest match of words

Which forms match at a place says which word is the longest match there: a form with more marks is
longer than one with fewer (`spelledLength?_lt_iff`), whatever the text. So a terminal of a word,
which tries its forms from the longest to the shortest, matches as far as any of them
(`Locale.formLength?_le`).
-/

namespace Wireframe

open Text

/-! ## The longest match -/

section Longest

variable {terminals : List Terminal} {text other : List Char} {kind : TokenKind} {n : Nat}

section Better

variable {t : Terminal} {best : Option (TokenKind × Nat)}

theorem betterMatch_of_none (h : t.shape.length? text = none) : betterMatch text best t = best := by
  simp only [betterMatch, h]

theorem betterMatch_none (h : t.shape.length? text = some n) :
    betterMatch text none t = some (t.kind, n) := by
  simp only [betterMatch, h]

theorem betterMatch_some (h : t.shape.length? text = some n) (m : Nat) :
    betterMatch text (some (kind, m)) t = if m < n then some (t.kind, n) else some (kind, m) := by
  simp only [betterMatch, h, gt_iff_lt]

end Better

theorem longestMatch?_concat (t : Terminal) :
    longestMatch? (terminals ++ [t]) text = betterMatch text (longestMatch? terminals text) t := by
  rw [longestMatch?, List.foldl_append]
  rfl

/-- Without terminals that match there is no longest match. -/
theorem longestMatch?_eq_none_iff :
    longestMatch? terminals text = none ↔ ∀ t ∈ terminals, t.shape.length? text = none := by
  induction terminals using List.reverseRecOn with
  | nil => exact iff_of_true rfl fun _ h => absurd h List.not_mem_nil
  | append_singleton terminals t ih =>
    rw [longestMatch?_concat, List.forall_mem_append, List.forall_mem_singleton, ← ih]
    cases hlength : t.shape.length? text with
    | none => simp [betterMatch_of_none hlength]
    | some length =>
      cases hbest : longestMatch? terminals text with
      | none => simp [betterMatch_none hlength]
      | some best =>
        rw [betterMatch_some hlength]
        split <;> simp

/-- The longest match is that of a terminal, and no match of a terminal is longer. -/
theorem longestMatch?_eq_some (h : longestMatch? terminals text = some (kind, n)) :
    (∃ t ∈ terminals, t.kind = kind ∧ t.shape.length? text = some n) ∧
      ∀ t ∈ terminals, ∀ m, t.shape.length? text = some m → m ≤ n := by
  induction terminals using List.reverseRecOn generalizing kind n with
  | nil => cases h
  | append_singleton terminals t ih =>
    rw [longestMatch?_concat] at h
    simp only [List.mem_append, List.mem_singleton, or_imp, forall_and, forall_eq]
    cases hlength : t.shape.length? text with
    | none =>
      rw [betterMatch_of_none hlength] at h
      obtain ⟨⟨u, hu, hfound⟩, hbound⟩ := ih h
      exact ⟨⟨u, .inl hu, hfound⟩, hbound, fun m hm => nomatch hm⟩
    | some length =>
      -- a later terminal wins only if its match is longer than the best one so far
      cases hbest : longestMatch? terminals text with
      | none =>
        rw [hbest, betterMatch_none hlength] at h
        obtain ⟨rfl, rfl⟩ := Prod.mk.inj (Option.some.inj h)
        refine ⟨⟨t, .inr rfl, rfl, hlength⟩, fun v hv m hm => ?_, fun m hm => ?_⟩
        · rw [longestMatch?_eq_none_iff.1 hbest v hv] at hm
          cases hm
        · exact Nat.le_of_eq (Option.some.inj hm).symm
      | some best =>
        obtain ⟨⟨u, hu, hfound⟩, hbound⟩ := ih hbest
        rw [hbest, betterMatch_some hlength] at h
        split at h
        · next hgt =>
          obtain ⟨rfl, rfl⟩ := Prod.mk.inj (Option.some.inj h)
          refine ⟨⟨t, .inr rfl, rfl, hlength⟩, fun v hv m hm => ?_, fun m hm => ?_⟩
          · exact Nat.le_trans (hbound v hv m hm) (Nat.le_of_lt hgt)
          · exact Nat.le_of_eq (Option.some.inj hm).symm
        · next hle =>
          obtain ⟨rfl, rfl⟩ := Prod.mk.inj (Option.some.inj h)
          exact ⟨⟨u, .inl hu, hfound⟩, hbound,
            fun m hm => Option.some.inj hm ▸ Nat.le_of_not_lt hle⟩

end Longest

/-! ## Forms -/

namespace WordForm

/-- Whether a form begins with a letter, its gaps are between words, and it must end a word exactly
    if it ends in a letter. -/
def isOrderly (f : WordForm) : Bool :=
  f.marks.head?.any (fun m => m ≠ .gap && m.isLetterMark) && isSpaced f.marks &&
    f.marks.all Mark.isPlain && f.marks.getLast?.all (f.bounded == ·.isLetterMark)

variable {f : WordForm}

theorem spaced (hf : f.isOrderly) : Spaced f.marks := by
  simp only [isOrderly, Bool.and_eq_true] at hf
  exact ⟨hf.1.1.2, List.all_eq_true.1 hf.1.2⟩

theorem exists_cons (hf : f.isOrderly) :
    ∃ m marks, f.marks = m :: marks ∧ m ≠ .gap ∧ m.isLetterMark := by
  simp only [isOrderly, Bool.and_eq_true] at hf
  have := hf.1.1.1
  cases hmarks : f.marks with
  | nil => rw [hmarks] at this; exact Bool.noConfusion this
  | cons m marks =>
    rw [hmarks, List.head?_cons, Option.any_some, Bool.and_eq_true, decide_eq_true_eq] at this
    exact ⟨m, marks, rfl, this⟩

end WordForm

namespace Terminal

/-- The forms of the word that a terminal is for, if it is for a word. -/
def forms (t : Terminal) : List WordForm :=
  match t.shape with
  | .word forms => forms
  | _ => []

/-- Whether the forms of a terminal are orderly, and those with more marks come first. -/
def isOrderly (t : Terminal) : Bool :=
  t.forms.all WordForm.isOrderly &&
    t.forms.Pairwise fun f g => g.marks.length ≤ f.marks.length

end Terminal

namespace Locale

/-- The terminals for the words of a locale. -/
def wordTerminals (locale : Locale) : List Terminal :=
  locale.dictionary.keywordTerminals ++ locale.dictionary.numeralTerminals

/-- The forms of all words of a locale. -/
def forms (locale : Locale) : List WordForm :=
  locale.wordTerminals.flatMap Terminal.forms

theorem regularTerminals_eq (locale : Locale) :
    locale.regularTerminals = Terminal.shared ++ locale.wordTerminals := by
  cases locale <;> exact List.append_assoc ..

theorem mem_regularTerminals {locale : Locale} {t : Terminal} :
    t ∈ locale.regularTerminals ↔ t ∈ Terminal.shared ∨ t ∈ locale.wordTerminals := by
  rw [regularTerminals_eq, List.mem_append]

/-- A terminal is shared, or for a word, or free text. -/
theorem mem_terminals {locale : Locale} {t : Terminal} : t ∈ locale.terminals ↔
    t ∈ Terminal.shared ∨ t ∈ locale.wordTerminals ∨ t = .catchAll := by
  rw [terminals, List.mem_append, mem_regularTerminals, List.mem_singleton, or_assoc]

theorem isOrderly_wordTerminals (locale : Locale) :
    locale.wordTerminals.all Terminal.isOrderly = true := by
  cases locale <;> decide +kernel

/-- What terminals of words match is the first of their forms that does. -/
theorem length?_of_mem {locale : Locale} {t : Terminal} (ht : t ∈ locale.wordTerminals)
    (text : List Char) :
    t.shape.length? text = (t.forms.findSome? (Shape.formLength? · text)).bind nonempty := by
  rcases List.mem_append.1 ht with ht | ht
  · obtain ⟨k, -, rfl⟩ := List.mem_map.1 ht
    rfl
  · obtain ⟨n, -, rfl⟩ := List.mem_map.1 ht
    rfl

/-- The terminals of words are those for keywords and numerals. -/
theorem kind_of_mem {locale : Locale} {t : Terminal} (ht : t ∈ locale.wordTerminals) :
    (∃ k, t.kind = .keyword k) ∨ ∃ n, t.kind = .numeral n := by
  rcases List.mem_append.1 ht with ht | ht
  · obtain ⟨k, -, rfl⟩ := List.mem_map.1 ht
    exact .inl ⟨k, rfl⟩
  · obtain ⟨n, -, rfl⟩ := List.mem_map.1 ht
    exact .inr ⟨n, rfl⟩

section Forms

variable {locale : Locale} {text : List Char}

theorem isOrderly_of_mem {f : WordForm} (hf : f ∈ locale.forms) : f.isOrderly := by
  obtain ⟨t, ht, hf⟩ := List.mem_flatMap.1 hf
  have := List.all_eq_true.1 locale.isOrderly_wordTerminals t ht
  exact List.all_eq_true.1 (Bool.and_eq_true_iff.1 this).1 f hf

theorem mem_forms {t : Terminal} {f : WordForm} (ht : t ∈ locale.wordTerminals) (hf : f ∈ t.forms) :
    f ∈ locale.forms :=
  List.mem_flatMap.2 ⟨t, ht, hf⟩

end Forms

end Locale

/-- A form that matches is spelled, and no letter follows if it must end a word. -/
theorem formLength?_eq_some_iff {f : WordForm} {text : List Char} {n : Nat} :
    Shape.formLength? f text = some n ↔ spelledLength? f.marks text = some n ∧
      (f.bounded = true → (text.drop n).head?.any isLetter = false) := by
  rw [Shape.formLength?]
  cases spelledLength? f.marks text with
  | none => simp
  | some m =>
    simp only [Option.some.injEq]
    split
    · next h =>
      rw [Bool.and_eq_true] at h
      refine iff_of_false (fun h' => nomatch h') ?_
      rintro ⟨rfl, h'⟩
      rw [h' h.1] at h
      exact Bool.noConfusion h.2
    · next h =>
      rw [Bool.and_eq_true, not_and, Bool.not_eq_true] at h
      refine ⟨?_, fun h' => congrArg some h'.1⟩
      rintro ⟨rfl⟩
      exact ⟨rfl, h⟩

theorem spelledLength?_pos {marks : List Mark} {text : List Char} {n : Nat} (hne : marks ≠ [])
    (h : spelledLength? marks text = some n) : 0 < n := by
  cases marks with
  | nil => exact absurd rfl hne
  | cons m marks =>
    by_cases hm : m = .gap
    · subst hm
      rw [spelledLength?] at h
      split at h
      · cases h
      · next hblanks =>
        obtain ⟨k, -, rfl⟩ := Option.map_eq_some_iff.1 h
        have := List.length_pos_iff.2 (mt List.isEmpty_iff.2 hblanks)
        omega
    · cases text with
      | nil => rw [spelledLength?_nil hne] at h; cases h
      | cons c rest =>
        cases hreads : m.reads c with
        | false => rw [spelledLength?_cons_none hm hreads] at h; cases h
        | true =>
          rw [spelledLength?_cons hreads] at h
          obtain ⟨k, -, rfl⟩ := Option.map_eq_some_iff.1 h
          omega

/-- More marks spell more of a text. -/
theorem spelledLength?_lt_iff {marks marks' : List Mark} (hmarks : Spaced marks)
    (hmarks' : Spaced marks') {text : List Char} {n n' : Nat}
    (h : spelledLength? marks text = some n) (h' : spelledLength? marks' text = some n') :
    n < n' ↔ marks.length < marks'.length := by
  obtain ⟨spelled, squeezed, rest, rfl, hspelling, rfl⟩ :=
    Spelling.exists_of_spelledLength? hmarks h
  -- the other marks go on after the text, end within it, or go nowhere
  rcases hspelling.compare hmarks' with ⟨front, back, rfl, hlength, hfront⟩ |
    ⟨t, t', c, c', u, u', rfl, rfl, ht, -, hlength⟩ | hnone
  · rw [hfront.spelledLength?_append] at h'
    obtain ⟨k, hk, rfl⟩ := Option.map_eq_some_iff.1 h'
    rw [List.length_append, hlength]
    cases back with
    | nil =>
      obtain rfl : 0 = k := Option.some.inj hk
      simp
    | cons m back =>
      have := spelledLength?_pos (List.cons_ne_nil _ _) hk
      rw [List.length_cons]
      omega
  · rw [List.append_assoc, ht.length_eq] at h'
    obtain rfl := Option.some.inj h'
    refine iff_of_false ?_ (Nat.lt_asymm hlength)
    rw [List.length_append]
    omega
  · rw [(hnone rest).1] at h'
    cases h'

namespace Locale

variable {locale : Locale} {text : List Char} {t : Terminal} {f : WordForm} {n : Nat}

theorem formLength?_pos (hf : f ∈ locale.forms) (h : Shape.formLength? f text = some n) :
    0 < n := by
  obtain ⟨m, marks, hmarks, -⟩ := WordForm.exists_cons (isOrderly_of_mem hf)
  exact spelledLength?_pos (hmarks ▸ List.cons_ne_nil _ _) (formLength?_eq_some_iff.1 h).1

theorem formLength?_lt_iff {g : WordForm} {m : Nat} (hf : f ∈ locale.forms) (hg : g ∈ locale.forms)
    (h : Shape.formLength? f text = some n) (h' : Shape.formLength? g text = some m) :
    n < m ↔ f.marks.length < g.marks.length :=
  spelledLength?_lt_iff (WordForm.spaced (isOrderly_of_mem hf))
    (WordForm.spaced (isOrderly_of_mem hg)) (formLength?_eq_some_iff.1 h).1
    (formLength?_eq_some_iff.1 h').1

/-- A terminal of a word matches what the first of its matching forms does. -/
theorem exists_first (ht : t ∈ locale.wordTerminals) (h : t.shape.length? text = some n) :
    ∃ l f r, t.forms = l ++ f :: r ∧ (∀ g ∈ l, Shape.formLength? g text = none) ∧
      Shape.formLength? f text = some n := by
  rw [length?_of_mem ht] at h
  obtain ⟨m, hm, h⟩ := Option.bind_eq_some_iff.1 h
  obtain ⟨l, f, r, hforms, hf, hl⟩ := List.findSome?_eq_some_iff.1 hm
  rw [nonempty] at h
  split at h
  · cases h
  · exact ⟨l, f, r, hforms, hl, hf.trans h⟩

theorem length?_of_first (ht : t ∈ locale.wordTerminals) {l r : List WordForm}
    (hforms : t.forms = l ++ f :: r) (hl : ∀ g ∈ l, Shape.formLength? g text = none)
    (hf : Shape.formLength? f text = some n) : t.shape.length? text = some n := by
  have hmem : f ∈ locale.forms := mem_forms ht (hforms ▸ List.mem_append_right _ List.mem_cons_self)
  rw [length?_of_mem ht, List.findSome?_eq_some_iff.2 ⟨l, f, r, hforms, hf, hl⟩, Option.bind_some,
    nonempty, if_neg (Nat.ne_of_gt (formLength?_pos hmem hf))]

theorem length?_eq_none_iff (ht : t ∈ locale.wordTerminals) :
    t.shape.length? text = none ↔ ∀ f ∈ t.forms, Shape.formLength? f text = none := by
  constructor
  · intro h
    rw [length?_of_mem ht] at h
    cases hfound : t.forms.findSome? (Shape.formLength? · text) with
    | none => exact List.findSome?_eq_none_iff.1 hfound
    | some m =>
      obtain ⟨l, f, r, hforms, hf, hl⟩ := List.findSome?_eq_some_iff.1 hfound
      rw [← length?_of_mem ht, length?_of_first ht hforms hl hf] at h
      cases h
  · intro h
    rw [length?_of_mem ht, List.findSome?_eq_none_iff.2 h]
    rfl

/-- What a terminal of a word matches is not shorter than what any of its forms does. -/
theorem formLength?_le (ht : t ∈ locale.wordTerminals) (h : t.shape.length? text = some n)
    (hf : f ∈ t.forms) {m : Nat} (hm : Shape.formLength? f text = some m) : m ≤ n := by
  obtain ⟨l, f', r, hforms, hl, hf'⟩ := exists_first ht h
  have hpairwise : t.forms.Pairwise fun f g => g.marks.length ≤ f.marks.length := by
    have := List.all_eq_true.1 locale.isOrderly_wordTerminals t ht
    exact of_decide_eq_true (Bool.and_eq_true_iff.1 this).2
  have hmem : f' ∈ locale.forms :=
    mem_forms ht (hforms ▸ List.mem_append_right _ List.mem_cons_self)
  refine Nat.le_of_not_lt fun hlt => ?_
  have hlength := (formLength?_lt_iff hmem (mem_forms ht hf) hf' hm).1 hlt
  rw [hforms] at hf hpairwise
  rcases List.mem_append.1 hf with hf | hf
  · rw [hl f hf] at hm
    cases hm
  · rcases List.mem_cons.1 hf with rfl | hf
    · exact Nat.lt_irrefl _ hlength
    · have := (List.pairwise_cons.1 (List.pairwise_append.1 hpairwise).2.1).1 f hf
      omega

end Locale

end Wireframe
