import Mathlib.Data.List.Nodup
import Mathlib.Data.List.Pairwise
import Wireframe.Proofs.Token.Line

/-!
# The vocabulary is unambiguous

The order in which terminals are registered decides between two matches of one length. There are
never two: of the words of a locale at most one matches at a place (`Locale.eq_of_word`), no shared
terminal matches where a word does (`Locale.shared_eq_none_of_word`), and of two shared terminals
that match at a place one is the line end, which goes on after the blanks that are the other
(`Terminal.eq_of_length?_eq`). So the longest match belongs to one terminal only, and the pieces of
a text do not depend on the order.
-/

namespace Wireframe

open Text

/-! ## Words -/

/-- Whether forms of two words are never both found at the front of one text. -/
def Terminal.excludes (t u : Terminal) : Bool :=
  t.forms.all fun f => u.forms.all fun g => !(g.mayMatch f.marks && f.mayMatch g.marks)

namespace Locale

theorem pairwise_excludes (locale : Locale) :
    locale.wordTerminals.Pairwise fun t u => t.excludes u = true := by
  cases locale <;> decide +kernel

variable {locale : Locale} {text : List Char} {t u : Terminal} {f g : WordForm} {n m : Nat}

/-- Of two forms found at the front of one text, each may be found where the other is. -/
theorem mayMatch_of_both (hf : f ∈ locale.forms) (hg : g ∈ locale.forms)
    (h : Shape.formLength? f text = some n) (h' : Shape.formLength? g text = some m) :
    g.mayMatch f.marks := by
  have hspaced := WordForm.spaced (isOrderly_of_mem hf)
  obtain ⟨spelled, squeezed, rest, rfl, hspelling, -⟩ :=
    Spelling.exists_of_spelledLength? hspaced (formLength?_eq_some_iff.1 h).1
  exact mayMatch_of_formLength? hspelling hspaced.plain (WordForm.spaced (isOrderly_of_mem hg)) h'

theorem length?_eq_none_or (ht : t ∈ locale.wordTerminals) (hu : u ∈ locale.wordTerminals)
    (h : t.excludes u) : t.shape.length? text = none ∨ u.shape.length? text = none := by
  cases hn : t.shape.length? text with
  | none => exact .inl rfl
  | some n =>
    cases hm : u.shape.length? text with
    | none => exact .inr rfl
    | some m =>
      obtain ⟨l, f, r, hforms, -, hf⟩ := exists_first ht hn
      obtain ⟨l', g, r', hforms', -, hg⟩ := exists_first hu hm
      have hmem : f ∈ t.forms := hforms ▸ List.mem_append_right l List.mem_cons_self
      have hmem' : g ∈ u.forms := hforms' ▸ List.mem_append_right l' List.mem_cons_self
      have hnot := List.all_eq_true.1 (List.all_eq_true.1 h f hmem) g hmem'
      rw [mayMatch_of_both (mem_forms ht hmem) (mem_forms hu hmem') hf hg,
        mayMatch_of_both (mem_forms hu hmem') (mem_forms ht hmem) hg hf] at hnot
      cases hnot

/-- At most one word matches at a place. -/
theorem pairwise_words (locale : Locale) (text : List Char) : locale.wordTerminals.Pairwise
    fun t u => t.shape.length? text = none ∨ u.shape.length? text = none :=
  locale.pairwise_excludes.imp_of_mem fun ht hu h => length?_eq_none_or ht hu h

theorem eq_of_word (ht : t ∈ locale.wordTerminals) (hu : u ∈ locale.wordTerminals)
    (h : t.shape.length? text = some n) (h' : u.shape.length? text = some m) : t = u := by
  have : Std.Symm fun t u : Terminal =>
      t.shape.length? text = none ∨ u.shape.length? text = none := ⟨fun _ _ => Or.symm⟩
  by_contra hne
  rcases (locale.pairwise_words text).forall ht hu hne with hnone | hnone
  · rw [hnone] at h
    cases h
  · rw [hnone] at h'
    cases h'

/-- A word begins with a letter. -/
theorem exists_letter (ht : t ∈ locale.wordTerminals) (h : t.shape.length? text = some n) :
    ∃ c rest, text = c :: rest ∧ isLetter c := by
  obtain ⟨l, f, r, hforms, -, hf⟩ := exists_first ht h
  have hmem := mem_forms ht (hforms ▸ List.mem_append_right l List.mem_cons_self)
  obtain ⟨m, marks, hmarks, hm, hletter⟩ := WordForm.exists_cons (isOrderly_of_mem hmem)
  have hspelled := (formLength?_eq_some_iff.1 hf).1
  rw [hmarks] at hspelled
  cases text with
  | nil =>
    rw [spelledLength?_nil (List.cons_ne_nil _ _)] at hspelled
    cases hspelled
  | cons c rest =>
    refine ⟨c, rest, rfl, Mark.isLetter_of_isLetterMark hletter ?_⟩
    cases hreads : m.reads c with
    | true => rfl
    | false =>
      rw [spelledLength?_cons_none hm hreads] at hspelled
      cases hspelled

/-- Where a word matches, no shared terminal does. -/
theorem shared_eq_none_of_word (ht : t ∈ locale.wordTerminals) (h : t.shape.length? text = some n)
    (hu : u ∈ Terminal.shared) : u.shape.length? text = none := by
  obtain ⟨c, rest, rfl, hc⟩ := exists_letter ht h
  exact shared_eq_none hc rest u hu

end Locale

/-! ## Shared terminals -/

/-- A line end goes on after the blanks in front of it. -/
theorem blanksLength_lt {text : List Char} {n : Nat} (h : Shape.lineEndLength? text = some n) :
    Shape.blanksLength text < n := by
  obtain ⟨k, hk, rfl⟩ := Option.map_eq_some_iff.1 h
  have hpos := (lineBreakLength?_le hk).1
  generalize (text.takeWhile Shape.isLineTail).length = tail at hk ⊢
  have hsplit := List.take_append_drop tail text
  generalize text.drop tail = rest at hk hsplit
  -- no blanks are read over the break
  have hstop : rest.takeWhile (fun c => isBlank c && !Shape.isBreak c) = [] := by
    rw [Shape.lineBreakLength?.eq_def] at hk
    split at hk
    · exact List.takeWhile_cons_of_neg (by decide)
    · exact List.takeWhile_cons_of_neg (by decide)
    · cases hk
  have hlength := List.length_take_le tail text
  rw [Shape.blanksLength, ← hsplit, List.takeWhile_append, hstop, List.append_nil]
  split
  · omega
  · have := takeWhile_length_le (fun c => isBlank c && !Shape.isBreak c) (text.take tail)
    omega

namespace Terminal

variable {text : List Char} {t u : Terminal} {n : Nat}

/-- Two shared terminals never match equally long. -/
theorem eq_of_length?_eq (ht : t ∈ shared) (hu : u ∈ shared) (h : t.shape.length? text = some n)
    (h' : u.shape.length? text = some n) : t = u := by
  obtain ⟨c, rest, rfl, hbegins⟩ := exists_cons_of_length? ht h
  have hblanks : ∀ {v}, v ∈ shared → v.kind = .blanks → v = ⟨.blanks, .blanks⟩ := fun hv hkind =>
    eq_of_kind_eq hv (by simp [shared]) hkind
  rcases kind_of_begins ht hbegins with htc | ⟨rfl, htc⟩ <;>
    rcases kind_of_begins hu (Shape.begins_of_length? h') with huc | ⟨rfl, huc⟩
  · exact eq_of_kind_eq ht hu (htc.trans huc.symm)
  · obtain rfl := hblanks ht (htc.trans huc)
    have := blanksLength_lt h'
    exact absurd (nonempty_eq_some_iff.1 h).1 (Nat.ne_of_lt this)
  · obtain rfl := hblanks hu (huc.trans htc)
    have := blanksLength_lt h
    exact absurd (nonempty_eq_some_iff.1 h').1 (Nat.ne_of_lt this)
  · rfl

end Terminal

namespace Locale

variable {locale : Locale} {text : List Char} {t u : Terminal} {n : Nat}

/-- Two terminals never match equally long. -/
theorem eq_of_length?_eq (ht : t ∈ locale.regularTerminals) (hu : u ∈ locale.regularTerminals)
    (h : t.shape.length? text = some n) (h' : u.shape.length? text = some n) : t = u := by
  rcases mem_regularTerminals.1 ht with ht | ht <;> rcases mem_regularTerminals.1 hu with hu | hu
  · exact Terminal.eq_of_length?_eq ht hu h h'
  · rw [shared_eq_none_of_word hu h' ht] at h
    cases h
  · rw [shared_eq_none_of_word ht h hu] at h'
    cases h'
  · exact eq_of_word ht hu h h'

end Locale

/-! ## Any order -/

/-- A terminal has the longest match of some terminals at the front of a text. -/
def Terminal.IsLongest (terminals : List Terminal) (text : List Char) (t : Terminal) : Prop :=
  ∃ n, t.shape.length? text = some n ∧ ∀ u ∈ terminals, ∀ m, u.shape.length? text = some m → m ≤ n

section Order

variable {terminals others : List Terminal} {text : List Char}

/-- Where two terminals never match equally long, their order makes no difference to the longest
    match. -/
theorem longestMatch?_perm (hperm : terminals.Perm others)
    (heq : ∀ t ∈ others, ∀ u ∈ others, ∀ n, t.shape.length? text = some n →
      u.shape.length? text = some n → t = u) :
    longestMatch? terminals text = longestMatch? others text := by
  cases h : longestMatch? terminals text with
  | none =>
    refine (longestMatch?_eq_none_iff.2 fun t ht => ?_).symm
    exact longestMatch?_eq_none_iff.1 h t (hperm.mem_iff.2 ht)
  | some found =>
    obtain ⟨⟨t, ht, hkind, hn⟩, hbound⟩ := longestMatch?_eq_some h
    cases h' : longestMatch? others text with
    | none =>
      rw [longestMatch?_eq_none_iff.1 h' t (hperm.mem_iff.1 ht)] at hn
      cases hn
    | some found' =>
      obtain ⟨⟨u, hu, hkind', hm⟩, hbound'⟩ := longestMatch?_eq_some h'
      have hlength : found.2 = found'.2 := Nat.le_antisymm
        (hbound' t (hperm.mem_iff.1 ht) _ hn) (hbound u (hperm.mem_iff.2 hu) _ hm)
      obtain rfl := heq t (hperm.mem_iff.1 ht) u hu found.2 hn (hlength ▸ hm)
      rw [Prod.ext (hkind.symm.trans hkind') hlength]

/-- Terminals with the same longest matches cut a text into the same pieces. -/
theorem cut_congr (h : ∀ text, longestMatch? terminals text = longestMatch? others text)
    (text : List Char) : cut terminals text = cut others text := by
  have hlexeme : ∀ text, lexemeAt? terminals text = lexemeAt? others text := fun text => by
    rw [lexemeAt?, h text, lexemeAt?]
  fun_induction cut terminals text with
  | case1 => rw [cut_nil]
  | case2 c rest kind length hfound ih => rw [cut, ← hlexeme, hfound, ih]
  | case3 c rest hnone ih => rw [cut_none (hlexeme _ ▸ hnone), ih]

end Order

namespace Locale

/-- Each terminal of a locale has a kind of its own. -/
theorem nodup_kinds (locale : Locale) : (locale.regularTerminals.map Terminal.kind).Nodup := by
  cases locale <;> decide

variable {locale : Locale} {text : List Char} {t u : Terminal}

/-- At most one terminal has the longest match. -/
theorem eq_of_isLongest (ht : t ∈ locale.regularTerminals) (hu : u ∈ locale.regularTerminals)
    (h : t.IsLongest locale.regularTerminals text)
    (h' : u.IsLongest locale.regularTerminals text) : t = u := by
  obtain ⟨n, hn, hbound⟩ := h
  obtain ⟨m, hm, hbound'⟩ := h'
  obtain rfl : n = m := Nat.le_antisymm (hbound' t ht n hn) (hbound u hu m hm)
  exact eq_of_length?_eq ht hu hn hm

/-- Where a terminal matches, one has the longest match, and no other does. -/
theorem exists_isLongest (h : ∃ t ∈ locale.regularTerminals, t.shape.length? text ≠ none) :
    ∃ front t back, locale.regularTerminals = front ++ t :: back ∧
      t.IsLongest locale.regularTerminals text ∧
      ∀ u ∈ front ++ back, ¬ u.IsLongest locale.regularTerminals text := by
  obtain ⟨v, hv, hmatch⟩ := h
  cases hfound : longestMatch? locale.regularTerminals text with
  | none => exact absurd (Wireframe.longestMatch?_eq_none_iff.1 hfound v hv) hmatch
  | some found =>
    obtain ⟨⟨t, ht, -, hn⟩, hbound⟩ := longestMatch?_eq_some hfound
    have hlongest : t.IsLongest locale.regularTerminals text := ⟨_, hn, hbound⟩
    obtain ⟨front, back, hsplit⟩ := List.append_of_mem ht
    have hnodup := List.Nodup.of_map _ locale.nodup_kinds
    rw [hsplit, List.nodup_middle, List.nodup_cons] at hnodup
    refine ⟨front, t, back, hsplit, hlongest, fun u hu hlongest' => hnodup.1 ?_⟩
    have hmem : u ∈ locale.regularTerminals := by
      rw [hsplit, List.mem_append, List.mem_cons]
      exact (List.mem_append.1 hu).imp_right .inr
    rwa [eq_of_isLongest ht hmem hlongest hlongest']

end Locale

/-- Of the words of a locale at most one matches at the front of a text, where a word matches no
    shared terminal does, and the longest match, if any terminal matches, is that of exactly one; so
    the lexer makes the same of every text when the terminals are registered in another order. -/
theorem Lexing.unambiguous (locale : Locale) (text : List Char) :
    locale.wordTerminals.Pairwise
        (fun t u => t.shape.length? text = none ∨ u.shape.length? text = none) ∧
      (∀ t ∈ locale.wordTerminals, ∀ u ∈ Terminal.shared,
        t.shape.length? text = none ∨ u.shape.length? text = none) ∧
      ((∃ t ∈ locale.regularTerminals, t.shape.length? text ≠ none) →
        ∃ front t back, locale.regularTerminals = front ++ t :: back ∧
          t.IsLongest locale.regularTerminals text ∧
          ∀ u ∈ front ++ back, ¬ u.IsLongest locale.regularTerminals text) ∧
      ∀ terminals, terminals.Perm locale.regularTerminals →
        ofPieces (cut terminals text) = ofText locale text := by
  refine ⟨locale.pairwise_words text, fun t ht u hu => ?_, Locale.exists_isLongest,
    fun terminals hperm => ?_⟩
  · cases h : t.shape.length? text with
    | none => exact .inl rfl
    | some n => exact .inr (Locale.shared_eq_none_of_word ht h hu)
  · have hlongest : ∀ text, longestMatch? terminals text =
        longestMatch? locale.regularTerminals text := fun text =>
      longestMatch?_perm hperm fun t ht u hu n h h' => Locale.eq_of_length?_eq ht hu h h'
    rw [ofText, Locale.pieces, cut_congr hlongest]

/-- Line ends and blanks match at the same place, and still do not depend on the order. -/
theorem Lexing.unambiguous_lineEnd :
    (∃ t ∈ Locale.english.regularTerminals, t.shape.length? [' ', '\n'] ≠ none) ∧
      (∃ front t back, Locale.english.regularTerminals = front ++ t :: back ∧
        t.IsLongest Locale.english.regularTerminals [' ', '\n'] ∧
        ∀ u ∈ front ++ back, ¬ u.IsLongest Locale.english.regularTerminals [' ', '\n']) ∧
      Locale.english.regularTerminals.reverse.Perm Locale.english.regularTerminals ∧
      ofPieces (cut Locale.english.regularTerminals.reverse [' ', '\n']) =
        ofText .english [' ', '\n'] := by
  have hmem : ⟨.lineEnd, .lineEnd⟩ ∈ Locale.english.regularTerminals :=
    Locale.mem_regularTerminals.2 (.inl List.mem_cons_self)
  have hmatch : ∃ t ∈ Locale.english.regularTerminals, t.shape.length? [' ', '\n'] ≠ none :=
    ⟨⟨.lineEnd, .lineEnd⟩, hmem, by decide⟩
  exact ⟨hmatch, (unambiguous .english _).2.2.1 hmatch, List.reverse_perm _,
    (unambiguous .english _).2.2.2 _ (List.reverse_perm _)⟩

end Wireframe
