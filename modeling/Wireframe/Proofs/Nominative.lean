import Wireframe.Caption

/-!
# Phrases in the nominative

A normalizer by a table looks up the heads of groups of words: the first word of a phrase, and every
word right after a conjunction (`Normalizer.isHeadAt`). All other words stay as they are, and
between any two words there is one space.

Whether a word is a head depends on the word before it, which may have been looked up itself. Over a
table that is *final* this does no harm: a word that is looked up is a conjunction neither before
nor after (`Normalizer.IsFinal.contains_nominative`). So a phrase has the same heads when it is put
into the nominative again, and as no nominative is a form there is nothing left to look up
(`Normalizer.normalizes_heads`).
-/

namespace Wireframe

/-! ## Words -/

namespace Text

/-- A text that is one word: there is something in it, and no blank. -/
def IsWord (text : List Char) : Prop :=
  text ≠ [] ∧ ∀ c ∈ text, isBlank c = false

-- the characters of the text are gone through, and not all that there are
instance (text : List Char) : Decidable (IsWord text) :=
  @instDecidableAnd (text ≠ []) _ inferInstance (List.decidableBAll _ text)

/-- What is not blank belongs to the run at the start of a text. -/
theorem splitWords_append {front : List Char} (h : ∀ c ∈ front, isBlank c = false)
    (text : List Char) :
    splitWords (front ++ text) = (front ++ (splitWords text).1, (splitWords text).2) := by
  induction front with
  | nil => rfl
  | cons c front ih =>
    obtain ⟨hc, hfront⟩ := List.forall_mem_cons.1 h
    simp [splitWords, ih hfront, hc]

theorem splitWords_space (text : List Char) : splitWords (' ' :: text) = ([], words text) := by
  have hspace : isBlank ' ' = true := by decide
  simp [splitWords, words, hspace]

theorem IsWord.words_append_space {word : List Char} (h : IsWord word) (text : List Char) :
    words (word ++ ' ' :: text) = word :: words text := by
  rw [words, splitWords_append h.2, splitWords_space]
  simp [h.1]

theorem IsWord.words_eq {word : List Char} (h : IsWord word) : words word = [word] := by
  have hsplit := splitWords_append h.2 []
  rw [List.append_nil] at hsplit
  rw [words, hsplit]
  simp [splitWords, h.1]

/-- Runs of characters that are not blank come out, each of them whole. -/
theorem splitWords_spec (text : List Char) :
    (∀ c ∈ (splitWords text).1, isBlank c = false) ∧ ∀ w ∈ (splitWords text).2, IsWord w := by
  induction text with
  | nil => simp [splitWords]
  | cons c text ih =>
    cases hc : isBlank c with
    | false => simpa [splitWords, hc] using ih
    | true =>
      cases hrun : (splitWords text).1 with
      | nil => simpa [splitWords, hc, hrun] using ih.2
      | cons d run =>
        -- the run that ends here is a word, as nothing before it goes on in it
        have hword : IsWord (d :: run) := ⟨List.cons_ne_nil _ _, hrun ▸ ih.1⟩
        simpa [splitWords, hc, hrun] using ⟨hword, ih.2⟩

theorem isWord_of_mem_words {text word : List Char} (h : word ∈ words text) : IsWord word := by
  obtain ⟨hfirst, hothers⟩ := splitWords_spec text
  rw [words] at h
  cases hrun : (splitWords text).1 with
  | nil => exact hothers word (by simpa [hrun] using h)
  | cons d run =>
    have hmem : word = d :: run ∨ word ∈ (splitWords text).2 := by simpa [hrun] using h
    rcases hmem with rfl | hmem
    · exact ⟨List.cons_ne_nil _ _, hrun ▸ hfirst⟩
    · exact hothers word hmem

/-- Words with a space between any two are what the text is read to. -/
theorem words_intercalate {ws : List (List Char)} (h : ∀ w ∈ ws, IsWord w) :
    words (List.intercalate [' '] ws) = ws := by
  induction ws with
  | nil => rfl
  | cons w ws ih =>
    obtain ⟨hw, hws⟩ := List.forall_mem_cons.1 h
    cases ws with
    | nil => rw [List.intercalate_singleton, hw.words_eq]
    | cons v ws =>
      rw [List.intercalate_cons_cons, List.append_assoc, List.singleton_append,
        hw.words_append_space, ih hws]

end Text

namespace Normalizer

/-- The words of a phrase. -/
def wordsOf (phrase : String) : List String :=
  (Text.words phrase.toList).map String.ofList

theorem isWord_of_mem_wordsOf {phrase word : String} (h : word ∈ wordsOf phrase) :
    Text.IsWord word.toList := by
  obtain ⟨w, hw, rfl⟩ := List.mem_map.1 h
  rw [String.toList_ofList]
  exact Text.isWord_of_mem_words hw

theorem wordsOf_intercalate {ws : List String} (h : ∀ w ∈ ws, Text.IsWord w.toList) :
    wordsOf (String.intercalate " " ws) = ws := by
  rw [wordsOf, String.toList_intercalate]
  change (Text.words (List.intercalate [' '] (ws.map String.toList))).map String.ofList = ws
  rw [Text.words_intercalate (List.forall_mem_map.2 h)]
  simp

/-! ## Heads -/

/-- Whether the word at a place is the head of a group: `first` says so of the first one, and any
    other one is if there is a conjunction right before it. -/
def isHeadAt (first : Bool) (words : List String) : Nat → Bool
  | 0 => first
  | i + 1 => words[i]?.any fun word => conjunctions.contains (lowerWord word)

variable {nominatives : List (String × String)}

theorem length_normalizeWords (first : Bool) (words : List String) :
    (normalizeWords nominatives first words).length = words.length := by
  induction words generalizing first with
  | nil => rfl
  | cons word words ih => simp [normalizeWords, ih]

/-- Heads are looked up, and all other words stay. -/
theorem getElem?_normalizeWords (first : Bool) (words : List String) (i : Nat) :
    (normalizeWords nominatives first words)[i]? =
      words[i]?.map fun word =>
        if isHeadAt first words i then nominative nominatives word else word := by
  induction words generalizing first i with
  | nil => rfl
  | cons word words ih =>
    cases i with
    | zero => rfl
    | succ i =>
      have hhead : isHeadAt (conjunctions.contains (lowerWord word)) words i =
          isHeadAt first (word :: words) (i + 1) := by
        cases i <;> simp [isHeadAt]
      rw [normalizeWords, List.getElem?_cons_succ, ih, hhead, List.getElem?_cons_succ]

/-! ## Final tables -/

/-- A table of which the nominatives are final: each is a word that is no form in its turn, and no
    conjunction. Nor is a conjunction a form. -/
structure IsFinal (nominatives : List (String × String)) : Prop where
  isWord : ∀ {form word}, nominatives.lookup form = some word → Text.IsWord word.toList
  lookup_eq_none : ∀ {form word}, nominatives.lookup form = some word →
    nominatives.lookup (lowerWord word) = none
  notMem : ∀ {form word}, nominatives.lookup form = some word → lowerWord word ∉ conjunctions
  conjunction : ∀ word ∈ conjunctions, nominatives.lookup word = none

namespace IsFinal

/-- To be final can be seen of the entries of a table. -/
theorem of_entries
    (h : ∀ entry ∈ nominatives, Text.IsWord entry.2.toList ∧
      nominatives.lookup (lowerWord entry.2) = none ∧ lowerWord entry.2 ∉ conjunctions)
    (hconjunction : ∀ word ∈ conjunctions, nominatives.lookup word = none) :
    IsFinal nominatives := by
  have hmem : ∀ {form word}, nominatives.lookup form = some word → (form, word) ∈ nominatives := by
    intro form word hlookup
    obtain ⟨before, after, rfl, -⟩ := List.lookup_eq_some_iff.1 hlookup
    exact List.mem_append_right _ List.mem_cons_self
  exact ⟨fun hlookup => (h _ (hmem hlookup)).1, fun hlookup => (h _ (hmem hlookup)).2.1,
    fun hlookup => (h _ (hmem hlookup)).2.2, hconjunction⟩

variable (h : IsFinal nominatives)

include h

theorem isWord_nominative {word : String} (hword : Text.IsWord word.toList) :
    Text.IsWord (nominative nominatives word).toList := by
  rw [nominative]
  cases hlookup : nominatives.lookup (lowerWord word) with
  | none => exact hword
  | some found => exact h.isWord hlookup

theorem nominative_nominative (word : String) :
    nominative nominatives (nominative nominatives word) = nominative nominatives word := by
  cases hlookup : nominatives.lookup (lowerWord word) with
  | none => simp [nominative, hlookup]
  | some found => simp [nominative, hlookup, h.lookup_eq_none hlookup]

/-- Looking a word up does not change whether it is a conjunction: a form is none, and a nominative
    neither. -/
theorem contains_nominative (word : String) :
    conjunctions.contains (lowerWord (nominative nominatives word)) =
      conjunctions.contains (lowerWord word) := by
  cases hlookup : nominatives.lookup (lowerWord word) with
  | none => rw [nominative, hlookup, Option.getD_none]
  | some found =>
    have hform : lowerWord word ∉ conjunctions := fun hmem => by
      rw [h.conjunction _ hmem] at hlookup
      cases hlookup
    have hfound := h.notMem hlookup
    rw [nominative, hlookup, Option.getD_some]
    simp only [List.contains_eq_mem, hform, hfound]

/-- The second time the heads are where they were the first time, and each of them is final. -/
theorem normalizeWords_normalizeWords (first : Bool) (words : List String) :
    normalizeWords nominatives first (normalizeWords nominatives first words) =
      normalizeWords nominatives first words := by
  induction words generalizing first with
  | nil => rfl
  | cons word words ih =>
    cases first with
    | false => simp only [normalizeWords, Bool.false_eq_true, if_false, ih]
    | true =>
      simp only [normalizeWords, if_true, h.nominative_nominative, h.contains_nominative, ih]

theorem isWord_of_mem_normalizeWords {first : Bool} {words : List String}
    (hwords : ∀ w ∈ words, Text.IsWord w.toList) :
    ∀ w ∈ normalizeWords nominatives first words, Text.IsWord w.toList := by
  induction words generalizing first with
  | nil => exact fun _ hw => absurd hw List.not_mem_nil
  | cons word words ih =>
    obtain ⟨hword, hwords⟩ := List.forall_mem_cons.1 hwords
    refine List.forall_mem_cons.2 ⟨?_, ih hwords⟩
    split
    · exact h.isWord_nominative hword
    · exact hword

/-- The words of a normalized phrase are the normalized words of the phrase. -/
theorem wordsOf_normalize (locale : Locale) (phrase : String) :
    wordsOf ((table locale nominatives).normalize phrase) =
      normalizeWords nominatives true (wordsOf phrase) :=
  wordsOf_intercalate (h.isWord_of_mem_normalizeWords fun _ => isWord_of_mem_wordsOf)

end IsFinal

/-- A normalizer that touches the heads of a phrase, and these once. -/
structure NormalizesHeads (n : Normalizer) : Prop where
  /-- What is in the nominative stays as it is. -/
  normalize_normalize : ∀ phrase, n.normalize (n.normalize phrase) = n.normalize phrase
  length_eq : ∀ phrase, (wordsOf (n.normalize phrase)).length = (wordsOf phrase).length
  /-- Between any two words there is one space, and around them none. -/
  eq_intercalate : ∀ phrase,
    n.normalize phrase = String.intercalate " " (wordsOf (n.normalize phrase))
  /-- A word that is neither the first one nor right after a conjunction stays as it is. -/
  getElem?_eq : ∀ phrase i, isHeadAt true (wordsOf phrase) i = false →
    (wordsOf (n.normalize phrase))[i]? = (wordsOf phrase)[i]?

theorem IsFinal.normalizesHeads (h : IsFinal nominatives) (locale : Locale) :
    NormalizesHeads (table locale nominatives) where
  normalize_normalize phrase := by
    change String.intercalate " " (normalizeWords nominatives true
      (wordsOf ((table locale nominatives).normalize phrase))) = _
    rw [h.wordsOf_normalize, h.normalizeWords_normalizeWords]
    rfl
  length_eq phrase := by
    rw [h.wordsOf_normalize, length_normalizeWords]
  eq_intercalate phrase := by
    rw [h.wordsOf_normalize]
    rfl
  getElem?_eq phrase i hhead := by
    rw [h.wordsOf_normalize, getElem?_normalizeWords, hhead]
    simp

/-- The table of Russian genitives is final. -/
theorem exists_isFinal_russianBasics :
    ∃ nominatives, russianBasics = table .russian nominatives ∧ IsFinal nominatives :=
  ⟨_, rfl, .of_entries (by decide +kernel) (by decide +kernel)⟩

/-- By any table that is final, and so by that of Russian genitives, the heads of a phrase are put
    into the nominative, and nothing is left to be done a second time. -/
theorem normalizes_heads :
    (∀ (locale : Locale) (nominatives : List (String × String)), IsFinal nominatives →
      NormalizesHeads (table locale nominatives)) ∧ NormalizesHeads russianBasics := by
  refine ⟨fun locale _ h => h.normalizesHeads locale, ?_⟩
  obtain ⟨nominatives, hbasics, h⟩ := exists_isFinal_russianBasics
  rw [hbasics]
  exact h.normalizesHeads .russian

/-- The last of three forms is no head, and the conjunction is in capitals. -/
theorem normalizes_heads_login :
    let n := table .russian [("логина", "Логин"), ("почты", "почта")]
    IsFinal [("логина", "Логин"), ("почты", "почта")] ∧ NormalizesHeads n ∧
      n.normalize "Логина  ИЛИ почты логина" = "Логин ИЛИ почта логина" := by
  intro n
  have hfinal : IsFinal [("логина", "Логин"), ("почты", "почта")] :=
    .of_entries (by decide +kernel) (by decide +kernel)
  exact ⟨hfinal, normalizes_heads.1 .russian _ hfinal, by decide +kernel⟩

end Normalizer

end Wireframe
