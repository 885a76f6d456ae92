-- Identifiers made of the words of a name. Spaces, underscores and hyphens separate words and are
-- dropped. The first letter of each word is capitalised and everything else is kept as it is
-- written, so a name that is in camel case already keeps its capitals. Only ASCII letters have a
-- case here.

namespace SoapBindings

-- How an identifier begins.
inductive LeadingCase where
  | lower
  | upper
  deriving DecidableEq, Repr

namespace LeadingCase

def apply : LeadingCase → Char → Char
  | .lower, c => c.toLower
  | .upper, c => c.toUpper

end LeadingCase

namespace Inflection

def isSeparator (c : Char) : Bool :=
  c == ' ' || c == '_' || c == '-'

-- What follows the first letter of an identifier. `fresh` holds after a separator, when the next
-- letter begins a word.
def continuation (fresh : Bool) : List Char → List Char
  | [] => []
  | c :: cs =>
    if isSeparator c then continuation true cs
    else (if fresh then c.toUpper else c) :: continuation false cs

-- The letters of an identifier: the case in question decides its first letter.
def letters (case : LeadingCase) : List Char → List Char
  | [] => []
  | c :: cs =>
    if isSeparator c then letters case cs
    else case.apply c :: continuation false cs

end Inflection

def inflect (case : LeadingCase) (word : String) : String :=
  .ofList (Inflection.letters case word.toList)

-- `get_user_info` becomes `getUserInfo`.
def camelize (word : String) : String :=
  inflect .lower word

-- `get_user_info` becomes `GetUserInfo`.
def classify (word : String) : String :=
  inflect .upper word

end SoapBindings
