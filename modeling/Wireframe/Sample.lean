import Wireframe.Vocabulary.Locale

/-!
# Sample scenes

Scenes that can be read without errors, in every locale.
-/

namespace Wireframe

/-- A scene with a name. -/
structure Sample where
  name : String
  locale : Locale
  text : String
  deriving Repr

namespace Sample

/-- A login screen for a phone. -/
def loginEnglish : Sample where
  name := "login_en"
  locale := .english
  text := "Mobile page: Login
Block: Form
    Image Logo
    Header
    Input e-mail or phone number
    Input password
    Button \"Sign in\"
Block: Service
    Two columns
    Link to password recovery
    Link to sign up
    \"2020 @vadkou\"
"

/-- A shop catalogue, with an alignment, a direction in each block, and a list. -/
def catalogueEnglish : Sample where
  name := "catalogue_en"
  locale := .english
  text := "// shop catalogue
Widescreen page: Catalogue
Block: Navigation
    Header Shop

Blocks \"Filters\", \"Goods\" aligned in two columns
Block: Goods
    3 columns
    Image <photo>
    Header <name>
    Field <price>
    List \"Categories\" consists of
        Button <category>

Block: Filters
    Rows
    Field Search
    Button \"Apply\"
"

/-- A short login screen. -/
def loginRussian : Sample where
  name := "login_ru"
  locale := .russian
  text := "Экран: Вход
Блок: Форма
    Поле ввода логина
    Поле ввода пароля
    Кнопка «Войти»
"

/-- A login screen with a list of help topics. -/
def helpRussian : Sample where
  name := "auth_ru"
  locale := .russian
  text := "Экран: Авторизация
Блок: Вход
    Картинка Логотип
    Заголовок
    Поле e-mail или номера телефона
    Поле ввода пароля
    Кнопка \"Войти\"
Блок: Сервис
    Два столбца
    Кнопка восстановления доступа
    Кнопка регистрации
    \"2020 @vadkou\"
Блок: Справка
    Список тем
        включает в себя
            Заголовок
            <Ссылка на статью>

// Блоки расположены по вертикали
"

/-- Every sample. -/
def all : List Sample :=
  [loginEnglish, catalogueEnglish, loginRussian, helpRussian]

end Sample

end Wireframe
