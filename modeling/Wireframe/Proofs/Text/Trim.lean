import Wireframe.Text.Blank

/-!
# Trimming

A text is trimmed to what begins and ends with a character that is not blank; the blanks around it
are all that is lost.
-/

namespace Wireframe.Text

theorem trimEnd_blanks {blanks : List Char} (h : ∀ b ∈ blanks, isBlank b) :
    trimEnd blanks = [] := by
  induction blanks with
  | nil => rfl
  | cons b blanks ih =>
    obtain ⟨hb, hblanks⟩ := List.forall_mem_cons.1 h
    simp only [trimEnd, ih hblanks, hb, if_true]

theorem trimEnd_cons {c : Char} {text : List Char} (h : trimEnd text ≠ []) :
    trimEnd (c :: text) = c :: trimEnd text := by
  rw [trimEnd]
  cases htrim : trimEnd text with
  | nil => exact absurd htrim h
  | cons d rest => rfl

/-- A text that ends in no blank is kept, without the blanks after it. -/
theorem trimEnd_append {text blanks : List Char} (htext : ∀ c ∈ text.getLast?, isBlank c = false)
    (h : ∀ b ∈ blanks, isBlank b) : trimEnd (text ++ blanks) = text := by
  induction text with
  | nil => exact trimEnd_blanks h
  | cons c text ih =>
    cases text with
    | nil =>
      have hc : isBlank c = false := htext c rfl
      simp only [List.singleton_append, trimEnd, trimEnd_blanks h, hc, Bool.false_eq_true, if_false]
    | cons d text =>
      have hrest := ih fun e he => htext e (by rwa [List.getLast?_cons_cons])
      rw [List.cons_append, trimEnd_cons (by rw [hrest]; exact List.cons_ne_nil _ _), hrest]

/-- What is trimmed off the end of a text are blanks. -/
theorem exists_trimEnd (text : List Char) : ∃ blanks, text = trimEnd text ++ blanks ∧
    (∀ b ∈ blanks, isBlank b) ∧ ∀ c ∈ (trimEnd text).getLast?, isBlank c = false := by
  induction text with
  | nil => exact ⟨[], rfl, fun _ h => absurd h List.not_mem_nil, fun _ h => nomatch h⟩
  | cons c text ih =>
    obtain ⟨blanks, htext, hblanks, hlast⟩ := ih
    -- a character stays if anything stays after it, and otherwise if it is not blank itself
    cases htrim : trimEnd text with
    | nil =>
      rw [htrim, List.nil_append] at htext
      subst htext
      cases hc : isBlank c with
      | false =>
        simp only [trimEnd, htrim, hc, Bool.false_eq_true, if_false]
        refine ⟨text, rfl, hblanks, fun d hd => ?_⟩
        obtain rfl : c = d := Option.some.inj hd
        exact hc
      | true =>
        simp only [trimEnd, htrim, hc, if_true]
        exact ⟨c :: text, rfl, List.forall_mem_cons.2 ⟨hc, hblanks⟩, fun _ h => nomatch h⟩
    | cons d rest =>
      rw [htrim] at htext hlast
      rw [trimEnd_cons (by rw [htrim]; exact List.cons_ne_nil _ _), htrim]
      refine ⟨blanks, congrArg (c :: ·) htext, hblanks, fun e he => hlast e ?_⟩
      rwa [List.getLast?_cons_cons] at he

theorem trim_cons {c : Char} {text : List Char} (hc : isBlank c = false) :
    trim (c :: text) = trimEnd (c :: text) := by
  rw [trim, List.dropWhile_cons_of_neg (by rw [hc]; exact Bool.noConfusion)]

/-- A text without blanks around it is kept by trimming, and so are the blanks after it not. -/
theorem trim_append {text blanks : List Char} (hfirst : ∀ c ∈ text.head?, isBlank c = false)
    (hlast : ∀ c ∈ text.getLast?, isBlank c = false) (h : ∀ b ∈ blanks, isBlank b) :
    trim (text ++ blanks) = text := by
  cases text with
  | nil =>
    have hdrop : blanks.dropWhile isBlank = [] := by
      rw [← List.append_nil blanks, List.dropWhile_append_of_pos h, List.dropWhile_nil]
    rw [trim, List.nil_append, hdrop]
    rfl
  | cons c text =>
    rw [List.cons_append, trim_cons (hfirst c rfl), ← List.cons_append, trimEnd_append hlast h]

theorem trim_eq_self {text : List Char} (hfirst : ∀ c ∈ text.head?, isBlank c = false)
    (hlast : ∀ c ∈ text.getLast?, isBlank c = false) : trim text = text := by
  have h := trim_append hfirst hlast (List.forall_mem_nil _)
  rwa [List.append_nil] at h

end Wireframe.Text
