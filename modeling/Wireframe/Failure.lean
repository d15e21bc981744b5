import Wireframe.Settings

/-!
# Failures

What can keep a request from being answered at all. What is wrong with a scene is no failure: it is
part of the reading.
-/

namespace Wireframe

/-- Why a request cannot be answered. -/
inductive Failure
  | unknownLocale (name : String)
  | unknownFormat (name : String)
  /-- The format shows a tree or tokens, and reading did not get that far. -/
  | nothingToShow (format : String)
  /-- The document holds a variant within a variant, which the format cannot write. -/
  | nestedTags
  | settings (fault : SettingsFault)
  | unreadable (path : String) (fault : ReadFault)
  deriving Repr

namespace Failure

/-- A failure in words. -/
def message : Failure → String
  | unknownLocale name => "unknown locale '" ++ name ++ "'"
  | unknownFormat name => "unknown output format '" ++ name ++ "'"
  | nothingToShow format => "format '" ++ format ++ "' has nothing to show, the scene did not parse"
  | nestedTags =>
    "YAML serialization failed: serializing nested enums in YAML is not supported yet"
  | settings fault => "configuration error: " ++ fault.message
  | unreadable path fault => "cannot read " ++ path ++ ": " ++ fault.message

end Failure

end Wireframe
