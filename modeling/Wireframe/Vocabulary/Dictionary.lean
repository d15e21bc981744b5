import Wireframe.Vocabulary.Concept

/-!
# Dictionaries

A dictionary lists, for one language, the forms under which each concept may be written. Case does
not matter when a form is read, a space in it stands for any run of spaces and tabs, and letters
that writers of the language interchange may stand for each other.
-/

namespace Wireframe

/-- The words of one language. -/
structure Dictionary where
  /-- The forms of each keyword. -/
  keywords : Keyword → List String
  /-- The forms of each numeral. -/
  numerals : Numeral → List String
  /-- Groups of letters that may stand for each other. -/
  interchangeable : List (List Char)

namespace Dictionary

/-- English. Of the places on the screen only forms of several words are listed: a bare `top` or
    `left` is too common at the beginning of a caption. -/
def english : Dictionary where
  keywords
    | .page => ["page:", "screen:"]
    | .mobile => ["mobile"]
    | .tablet => ["tablet", "laptop"]
    | .widescreen => ["widescreen", "desktop"]
    | .block => ["block:"]
    | .blocks => ["blocks"]
    | .header => ["header"]
    | .field => ["input", "field"]
    | .button => ["button", "link to", "link"]
    | .list => ["list"]
    | .image => ["image"]
    | .space => ["empty space", "spacer", "space"]
    | .consistsOf => ["consists of"]
    | .aligned => ["aligned in", "aligned"]
    | .withIcon => ["with an icon", "with icon"]
    | .rows => ["rows", "row"]
    | .columns => ["columns", "column"]
    | .top => ["at the top", "on top"]
    | .bottom => ["at the bottom", "on the bottom"]
    | .left => ["on the left"]
    | .right => ["on the right"]
    | .center => ["in the center", "centered"]
  numerals
    | .zero => ["zero"]
    | .one => ["one"]
    | .two => ["two"]
    | .three => ["three"]
    | .four => ["four"]
    | .five => ["five"]
    | .six => ["six"]
    | .seven => ["seven"]
    | .eight => ["eight"]
    | .nine => ["nine"]
    | .ten => ["ten"]
    | .eleven => ["eleven"]
    | .twelve => ["twelve"]
  interchangeable := []

/-- Russian, which inflects nouns and numerals: the listed forms are those that a count of rows or
    columns takes. A preposition before a direction is no part of the vocabulary. -/
def russian : Dictionary where
  keywords
    | .page => ["страница:", "экран:"]
    | .mobile => ["мобильный", "мобильная"]
    | .tablet => ["планшетный", "планшетная", "ноутбучный", "ноутбучная"]
    | .widescreen => ["широкоформатный", "широкоформатная"]
    | .block => ["блок:"]
    | .blocks => ["блоки"]
    | .header => ["заголовок"]
    | .field => ["поле ввода", "поле"]
    | .button => ["кнопка", "ссылка"]
    | .list => ["список"]
    | .image => ["картинка"]
    | .space => ["пустота", "пустое пространство"]
    | .consistsOf => ["включает в себя"]
    | .aligned => ["расположены в", "расположены"]
    | .withIcon => ["с иконкой"]
    | .rows =>
      ["строка", "строку", "строчка", "строчку", "строки", "строк", "строкой", "строчкой",
        "строками", "строчками"]
    | .columns => ["столбец", "столбца", "столбцов", "столбцом", "столбцы", "столбцами"]
    | .top => ["верхний", "сверху"]
    | .bottom => ["нижний", "снизу"]
    | .left => ["левый", "слева"]
    | .right => ["правый", "справа"]
    | .center => ["по центру"]
  numerals
    | .zero => ["ноль", "ноля", "нолю"]
    | .one => ["один", "одна", "одного", "одну", "одним", "одной"]
    | .two => ["два", "две", "двум", "двумя"]
    | .three => ["три", "трём", "тремя"]
    | .four => ["четыре", "четырём", "четырьмя"]
    | .five => ["пять", "пяти", "пятью"]
    | .six => ["шесть", "шести", "шестью"]
    | .seven => ["семь", "семи", "семью"]
    | .eight => ["восемь", "восьми", "восемью"]
    | .nine => ["девять", "девяти", "девятью"]
    | .ten => ["десять", "десяти", "десятью"]
    | .eleven => ["одиннадцать", "одиннадцати", "одиннадцатью"]
    | .twelve => ["двенадцать", "двенадцати", "двенадцатью"]
  interchangeable := [['е', 'ё']]

end Dictionary

end Wireframe
