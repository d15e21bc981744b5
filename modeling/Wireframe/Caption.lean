import Wireframe.Scene
import Wireframe.Text.Lower
import Wireframe.Vocabulary.Locale

/-!
# Captions

What is shown on an item. Writers of an inflected language name an item as they would in speech,
"a field for the password", so free text may be put into the nominative case before it is shown. A
*normalizer* does this from a table of word forms; only the head of each group of words is looked
up, the first word and each word after a conjunction. Quoted text is shown as it is written.
-/

namespace Wireframe

/-- How phrases are put into the nominative case. -/
inductive Normalizer
  /-- They are left as they are. -/
  | verbatim (locale : Locale)
  /-- By a table from forms in lower case to nominatives. -/
  | table (locale : Locale) (nominatives : List (String × String))
  deriving Repr

/-- A word in lower case. -/
def lowerWord (word : String) : String :=
  String.ofList (Text.lower word.toList)

/-- The words after which a new group of words begins. -/
def conjunctions : List String := ["или", "и", "or", "and"]

namespace Normalizer

/-- The locale whose phrases are meant. -/
def locale : Normalizer → Locale
  | verbatim locale => locale
  | table locale _ => locale

/-- Adds the nominative of a form; an earlier entry for the form no longer counts. -/
def withWord (form nominative : String) : Normalizer → Normalizer
  | verbatim locale => verbatim locale
  | table locale nominatives => table locale ((lowerWord form, nominative) :: nominatives)

/-- Adds the nominatives of several forms, one after the other. -/
def withWords (words : List (String × String)) (n : Normalizer) : Normalizer :=
  words.foldl (fun m (form, nominative) => m.withWord form nominative) n

/-- The genitives that are most common on Russian forms. -/
def russianBasics : Normalizer :=
  (table .russian []).withWords [
    ("пароля", "пароль"),
    ("логина", "логин"),
    ("почты", "почта"),
    ("телефона", "телефон"),
    ("имени", "имя"),
    ("фамилии", "фамилия"),
    ("адреса", "адрес"),
    ("поиска", "поиск"),
    ("сообщения", "сообщение"),
    ("комментария", "комментарий"),
    ("даты", "дата"),
    ("города", "город")]

/-- The nominative of a word, by a table; a word that is not in it is left as it is. -/
def nominative (nominatives : List (String × String)) (word : String) : String :=
  (nominatives.lookup (lowerWord word)).getD word

/-- Puts the heads among some words into the nominative; `isHead` says whether the first one is. -/
def normalizeWords (nominatives : List (String × String)) : Bool → List String → List String
  | _, [] => []
  | isHead, word :: rest =>
    (if isHead then nominative nominatives word else word) ::
      normalizeWords nominatives (conjunctions.contains (lowerWord word)) rest

/-- A phrase in the nominative case. -/
def normalize (n : Normalizer) (phrase : String) : String :=
  match n with
  | verbatim _ => phrase
  | table _ nominatives =>
    let words := (Text.words phrase.toList).map String.ofList
    String.intercalate " " (normalizeWords nominatives true words)

end Normalizer

namespace Item

/-- The text shown on an item: its own, free text after normalization, or else its keyword. -/
def caption (normalizer : Option Normalizer) (i : Item) : String :=
  match i.content with
  | .literal literal => literal.text
  | .widget _ _ (some value) =>
    match value, normalizer with
    | .freeText _, some n => n.normalize value.text
    | _, _ => value.text
  | .widget _ keyword none => String.ofList (Text.squeeze keyword.chars)

end Item

end Wireframe
