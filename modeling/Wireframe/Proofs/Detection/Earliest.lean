import Mathlib.Data.Nat.Find
import Wireframe.Proofs.Detection
import Wireframe.Proofs.Token.Form

/-!
# The earliest page keyword tells the locale

Detection looks for page keywords at one place of the text after the other, so it finds the first
place at which one is spelled (`Locale.detect?_eq_some_iff`), and there the keywords of one locale
only (`Locale.opensPage_unique`). A page keyword ends with its only colon: where one is spelled at a
later place of a text, none is begun before that place and ended after the text. So more text does
not change what was detected (`Locale.detect?_append_of_some`).
-/

namespace Wireframe

open Text

namespace Locale

/-- A page keyword of a locale is spelled at the front of a text, whatever comes after it. -/
def SpellsPage (locale : Locale) (text : List Char) : Prop :=
  ∃ word rest, text = word ++ rest ∧ locale.dictionary.SpellsWord (.keyword .page) word

variable {locale other : Locale} {text before rest more : List Char}

/-- Of two fronts of a text the longer one goes on after the shorter one. -/
theorem exists_of_append_of_length_lt {front back front' back' : List Char}
    (h : front ++ back = front' ++ back') (hlt : front.length < front'.length) :
    ∃ more, front' = front ++ more ∧ back = more ++ back' := by
  rcases List.append_eq_append_iff.1 h with hmore | ⟨more, rfl, -⟩
  · exact hmore
  · rw [List.length_append] at hlt
    omega

theorem opensPage_iff_spellsPage : locale.opensPage text ↔ locale.SpellsPage text := by
  rw [opensPage, Dictionary.formAt?, List.findSome?_isSome_iff]
  simp only [mem_longestFirst, Option.isSome_iff_exists]
  constructor
  · rintro ⟨form, hform, n, hn⟩
    replace hform : form ∈ locale.dictionary.formsOf (.keyword .page) := hform
    obtain ⟨word, rest, htext, hword, -⟩ := (spelledLength?_iff hform).1 hn
    exact ⟨word, rest, htext, form, hform, hword⟩
  · rintro ⟨word, rest, htext, form, hform, hword⟩
    exact ⟨form, hform, word.length,
      (spelledLength?_iff hform).2 ⟨word, rest, htext, hword, rfl⟩⟩

/-- Places at which no page keyword is spelled are passed over. -/
theorem detect?_passed (h : ∀ before' rest', before ++ rest = before' ++ rest' →
    before'.length < before.length → ∀ other : Locale, ¬ other.opensPage rest') :
    detect? (before ++ rest) = detect? rest := by
  induction before with
  | nil => rfl
  | cons c before ih =>
    have hnone : all.find? (·.opensPage (c :: (before ++ rest))) = none :=
      List.find?_eq_none.2 fun other _ => h [] _ rfl (Nat.succ_pos _) other
    rw [List.cons_append, detect?_cons, hnone, Option.none_or, ih]
    intro before' rest' heq hlt
    exact h (c :: before') rest' (congrArg (c :: ·) heq) (Nat.succ_lt_succ hlt)

/-- Either no page keyword is spelled, or there is a first place at which one is. -/
theorem forall_or_exists_first (text : List Char) :
    (∀ before rest, text = before ++ rest → ∀ other : Locale, ¬ other.opensPage rest) ∨
      ∃ before rest, text = before ++ rest ∧ (∃ locale : Locale, locale.opensPage rest) ∧
        ∀ before' rest', text = before' ++ rest' → before'.length < before.length →
          ∀ other : Locale, ¬ other.opensPage rest' := by
  by_cases h : ∃ n before rest, before.length = n ∧ text = before ++ rest ∧
      ∃ locale : Locale, locale.opensPage rest
  · classical
    obtain ⟨before, rest, hlength, htext, hopens⟩ := Nat.find_spec h
    refine .inr ⟨before, rest, htext, hopens, fun before' rest' heq hlt other hother => ?_⟩
    exact Nat.find_min h (hlength ▸ hlt) ⟨before', rest', rfl, heq, other, hother⟩
  · exact .inl fun before rest heq other hopens => h ⟨_, before, rest, rfl, heq, other, hopens⟩

/-- Nothing is detected exactly if no page keyword is spelled anywhere. -/
theorem detect?_eq_none_iff : detect? text = none ↔
    ∀ before rest, text = before ++ rest → ∀ other : Locale, ¬ other.opensPage rest := by
  constructor
  · intro hdetect before rest heq other hopens
    rcases forall_or_exists_first text with hnone | ⟨before, rest, rfl, ⟨locale, hopens⟩, hfirst⟩
    · exact hnone before rest heq other hopens
    · rw [detect?_passed hfirst, detect?_of_opensPage hopens] at hdetect
      cases hdetect
  · intro hnone
    rw [← List.append_nil text] at hnone ⊢
    exact detect?_passed fun before' rest' heq _ => hnone before' rest' heq

/-- What is detected is the locale whose page keyword is spelled at the first place of all. -/
theorem detect?_eq_some_iff : detect? text = some locale ↔
    ∃ before rest, text = before ++ rest ∧ locale.opensPage rest ∧
      ∀ before' rest', text = before' ++ rest' → before'.length < before.length →
        ∀ other : Locale, ¬ other.opensPage rest' := by
  constructor
  · intro hdetect
    rcases forall_or_exists_first text with hnone | ⟨before, rest, rfl, ⟨found, hopens⟩, hfirst⟩
    · rw [detect?_eq_none_iff.2 hnone] at hdetect
      cases hdetect
    · rw [detect?_passed hfirst, detect?_of_opensPage hopens] at hdetect
      obtain rfl := Option.some.inj hdetect
      exact ⟨before, rest, rfl, hopens, hfirst⟩
  · rintro ⟨before, rest, rfl, hopens, hfirst⟩
    rw [detect?_passed hfirst, detect?_of_opensPage hopens]

/-- What is detected in a text does not change when more is written after it. -/
theorem detect?_append_of_some (h : detect? text = some locale) (more : List Char) :
    detect? (text ++ more) = some locale := by
  obtain ⟨before, rest, rfl, hopens, hfirst⟩ := detect?_eq_some_iff.1 h
  refine detect?_eq_some_iff.2 ⟨before, rest ++ more, List.append_assoc .., ?_, ?_⟩
  · obtain ⟨marks, hmarks, word, rest', rfl, hword⟩ := opensPage_iff.1 hopens
    exact opensPage_iff.2 ⟨marks, hmarks, word, rest' ++ more, List.append_assoc .., hword⟩
  · intro before' rest' heq hlt other
    rw [List.append_assoc] at heq
    obtain ⟨front, rfl, rfl⟩ := exists_of_append_of_length_lt heq.symm hlt
    -- the page keyword that was found, and so its colon, comes after that place
    have hcolon : ':' ∈ front ++ rest :=
      List.mem_append_right _ ((opensPage_iff.1 hopens).elim fun _ h => h.2.colon_mem)
    rw [← List.append_assoc, opensPage_append (.inl ⟨':', hcolon, isLetter_colon⟩)]
    exact hfirst before' (front ++ rest) (List.append_assoc ..) hlt other

end Locale

/-- Nothing is detected where no page keyword is spelled anywhere; otherwise the locale of the one
    that is spelled first is, and no other locale has one at the same place. More text after it does
    not change what was detected, and a line feed never does. -/
theorem Locale.detect?_earliest :
    (∀ text, detect? text = none ↔
      ∀ before rest, text = before ++ rest → ∀ other : Locale, ¬ other.SpellsPage rest) ∧
    (∀ text locale, detect? text = some locale ↔
      ∃ before rest, text = before ++ rest ∧ locale.SpellsPage rest ∧
        ∀ before' rest', text = before' ++ rest' → ∀ other : Locale, other.SpellsPage rest' →
          byteLength before ≤ byteLength before') ∧
    (∀ (text : List Char) (locale other : Locale), locale.SpellsPage text → other.SpellsPage text →
      locale = other) ∧
    (∀ text more locale, detect? text = some locale → detect? (text ++ more) = some locale) ∧
    ∀ text, detect? (text ++ ['\n']) = detect? text := by
  simp only [← opensPage_iff_spellsPage]
  refine ⟨fun text => detect?_eq_none_iff, fun text locale => ?_, fun _ _ _ => opensPage_unique,
    fun text more _ h => detect?_append_of_some h more, fun text => ?_⟩
  · rw [detect?_eq_some_iff]
    refine exists₂_congr fun before rest => and_congr_right fun heq => and_congr_right fun _ => ?_
    refine forall₃_congr fun before' rest' heq' => ?_
    -- of two places in a text, the earlier one has the shorter text before it
    rw [byteLength_le_iff (heq.symm.trans heq')]
    exact ⟨fun h other hother => Nat.le_of_not_lt fun hlt => h hlt other hother,
      fun h hlt other hother => Nat.not_le_of_gt hlt (h other hother)⟩
  · have hnone : detect? ['\n'] = none := detect?_of_notMem (by decide)
    rw [detect?_append fun _ _ _ => .inr fun c hc => ?_, hnone, Option.or_none]
    obtain rfl := Option.some.inj hc
    exact isLetter_of_isBreak (by decide)

/-- The keyword inside an English word comes before the Russian one, which is put after it. -/
theorem Locale.detect?_earliest_homepage :
    detect? "// homepage:".toList = some .english ∧
      detect? ("// homepage:".toList ++ "Экран: A".toList) = some .english := by
  have h : detect? "// homepage:".toList = some .english := by decide +kernel
  exact ⟨h, detect?_earliest.2.2.2.1 _ _ _ h⟩

end Wireframe
