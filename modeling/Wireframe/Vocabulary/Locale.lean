import Wireframe.Vocabulary.Dictionary

/-!
# Locales

The languages a scene can be written in. A scene does not say which one it uses; a preference
either fixes the locale or leaves it to be detected.
-/

namespace Wireframe

/-- A language a scene can be written in. -/
inductive Locale
  | russian
  | english
  deriving DecidableEq, Repr

namespace Locale

/-- Every locale; where two would do, the earlier is taken. -/
def all : List Locale := [russian, english]

/-- The identifier of a locale. -/
def id : Locale → String
  | russian => "ru_RU"
  | english => "en_US"

/-- The words of a locale. -/
def dictionary : Locale → Dictionary
  | russian => .russian
  | english => .english

end Locale

/-- Lower case for the letters `A` to `Z` only, which is how names are compared. -/
def plainLower (name : String) : String :=
  String.ofList (name.toList.map Char.toLower)

namespace Locale

/-- The locale with the given identifier, in either case and with `-` or `_` in it. -/
def ofName? (name : String) : Option Locale :=
  all.find? fun locale =>
    let id := plainLower locale.id
    plainLower name = id ||
      plainLower name = String.ofList (id.toList.map fun c => if c = '_' then '-' else c)

end Locale

/-- Which locale to read a scene in. -/
inductive LocalePreference
  /-- The one its first page keyword belongs to. -/
  | auto
  | fixed (locale : Locale)
  deriving DecidableEq, Repr

namespace LocalePreference

/-- The name of a preference. -/
def name : LocalePreference → String
  | auto => "auto"
  | fixed locale => locale.id

/-- The preference with the given name: `auto` or the identifier of a locale. -/
def ofName? (name : String) : Option LocalePreference :=
  if plainLower name = "auto" then some auto else (Locale.ofName? name).map fixed

end LocalePreference

end Wireframe
