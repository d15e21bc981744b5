/-!
# What the words of the language mean

The scene language has the same words in every locale, under different forms. A *keyword* names a
part of a scene or says how parts are laid out; a *numeral* is a number word from zero to twelve.
-/

namespace Wireframe

/-- The meanings of the keywords. -/
inductive Keyword
  | page | mobile | tablet | widescreen | block | blocks | field | button | header | list | image
  | space | consistsOf | aligned | withIcon | rows | columns | top | bottom | left | right | center
  deriving DecidableEq, Repr

namespace Keyword

/-- Every keyword, in the order in which token kinds are registered. -/
def all : List Keyword :=
  [page, mobile, tablet, widescreen, block, blocks, field, button, header, list, image, space,
    consistsOf, aligned, withIcon, rows, columns, top, bottom, left, right, center]

/-- The name of a keyword in token listings and messages. -/
def name : Keyword → String
  | page => "Page"
  | mobile => "Mobile"
  | tablet => "Tablet"
  | widescreen => "Widescreen"
  | block => "Block"
  | blocks => "Blocks"
  | field => "Field"
  | button => "Button"
  | header => "Header"
  | list => "List"
  | image => "Image"
  | space => "Space"
  | consistsOf => "ConsistsOf"
  | aligned => "Aligned"
  | withIcon => "WithIcon"
  | rows => "Rows"
  | columns => "Columns"
  | top => "Top"
  | bottom => "Bottom"
  | left => "Left"
  | right => "Right"
  | center => "Center"

end Keyword

/-- The number words. -/
inductive Numeral
  | zero | one | two | three | four | five | six | seven | eight | nine | ten | eleven | twelve
  deriving DecidableEq, Repr

namespace Numeral

/-- Every numeral, in ascending order. -/
def all : List Numeral :=
  [zero, one, two, three, four, five, six, seven, eight, nine, ten, eleven, twelve]

/-- The number a numeral stands for. -/
def value : Numeral → Nat
  | zero => 0
  | one => 1
  | two => 2
  | three => 3
  | four => 4
  | five => 5
  | six => 6
  | seven => 7
  | eight => 8
  | nine => 9
  | ten => 10
  | eleven => 11
  | twelve => 12

/-- The numeral for a number, if there is a word for it. -/
def ofValue? (n : Nat) : Option Numeral :=
  all[n]?

/-- The name of a numeral in token listings and messages. -/
def name : Numeral → String
  | zero => "Zero"
  | one => "One"
  | two => "Two"
  | three => "Three"
  | four => "Four"
  | five => "Five"
  | six => "Six"
  | seven => "Seven"
  | eight => "Eight"
  | nine => "Nine"
  | ten => "Ten"
  | eleven => "Eleven"
  | twelve => "Twelve"

theorem value_lt (n : Numeral) : n.value < 13 := by
  cases n <;> decide

end Numeral

end Wireframe
