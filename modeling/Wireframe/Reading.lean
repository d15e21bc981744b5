import Wireframe.Grammar.Rules
import Wireframe.Token.Lexing
import Wireframe.Vocabulary.Detection

/-!
# Reading a scene

From text to tree: the locale is settled, the text is lexed in it, the tokens are parsed. A text
that cannot be lexed is not parsed; a text with parse errors gives no tree, but its tokens. Comments
join the tree at the end.
-/

namespace Wireframe

/-- How a text is read. -/
structure ReadingOptions where
  locale : LocalePreference
  /-- Whether a line feed is added after a last line without one. -/
  endsLastLine : Bool
  /-- The number of parse errors after which reading stops. -/
  errorLimit : Nat
  deriving DecidableEq, Repr

namespace ReadingOptions

/-- How a text is read if nothing else is said. -/
def standard : ReadingOptions :=
  ⟨.auto, true, Parsing.defaultLimit⟩

/-- The text that is lexed. -/
def source (o : ReadingOptions) (text : List Char) : List Char :=
  if o.endsLastLine then endLastLine text else text

/-- The locale of a text. -/
def locale? (o : ReadingOptions) (text : List Char) : Option Locale :=
  match o.locale with
  | .fixed locale => some locale
  | .auto => Locale.detect? text

end ReadingOptions

/-- What becomes of a text. -/
inductive Reading
  | success (locale : Locale) (scene : Scene) (tokens : List Token)
  | lexErrors (errors : List LexError)
  | parseErrors (locale : Locale) (errors : List ParseError) (tokens : List Token)
  deriving DecidableEq, Repr

namespace Reading

/-- The error of a text whose locale cannot be told. -/
def unknownLocale : LexError :=
  ⟨.unknownLocale (Locale.all.flatMap fun locale => locale.dictionary.keywords .page), .origin⟩

/-- Reads a text in a locale. -/
def inLocale (locale : Locale) (errorLimit : Nat) (text : List Char) : Reading :=
  let lexing := Lexing.ofText locale text
  if lexing.hasErrors then lexErrors lexing.errors
  else
    let parsing := Parsing.ofTokens errorLimit lexing.tokens
    if parsing.hasErrors then parseErrors locale parsing.errors lexing.tokens
    else
      success locale { parsing.scene with comments := lexing.comments.map Comment.mk } lexing.tokens

/-- Reads a text. -/
def ofText (o : ReadingOptions) (text : List Char) : Reading :=
  let source := o.source text
  match o.locale? source with
  | some locale => inLocale locale o.errorLimit source
  | none => lexErrors [unknownLocale]

/-- Whether there is a tree. -/
def isSuccess : Reading → Bool
  | success .. => true
  | _ => false

/-- The locale a text was parsed in. -/
def locale? : Reading → Option Locale
  | success locale .. => some locale
  | parseErrors locale .. => some locale
  | lexErrors _ => none

/-- The tree. -/
def scene? : Reading → Option Scene
  | success _ scene _ => some scene
  | _ => none

/-- The tokens that were parsed. -/
def tokens? : Reading → Option (List Token)
  | success _ _ tokens => some tokens
  | parseErrors _ _ tokens => some tokens
  | lexErrors _ => none

/-- What is wrong, a line for each error. -/
def diagnostics : Reading → List String
  | success .. => []
  | lexErrors errors => errors.map LexError.diagnostic
  | parseErrors _ errors _ => errors.map ParseError.diagnostic

end Reading

end Wireframe
