import Wireframe.Vocabulary.Locale
import Wireframe.Vocabulary.Spelling

/-!
# Detecting the locale of a scene

Every page starts with a page keyword, so the locale whose page keyword is written first, anywhere
in the text, is the locale of the scene.
-/

namespace Wireframe

namespace Locale

/-- Whether a form of the locale's page keyword is spelled at the front of a text. -/
def opensPage (locale : Locale) (text : List Char) : Bool :=
  (locale.dictionary.formAt? (locale.dictionary.keywords .page) text).isSome

/-- The locale whose page keyword is written first in a text. -/
def detect? : List Char → Option Locale
  | [] => none
  | text@(_ :: rest) =>
    match all.find? (·.opensPage text) with
    | some locale => some locale
    | none => detect? rest

end Locale

end Wireframe
