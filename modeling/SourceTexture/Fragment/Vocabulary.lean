import SourceTexture.Fragment.Basic
import SourceTexture.Text.Normal

/-!
# Vocabularies

Which words a language reserves, and what a piece of undefined text is by its
spelling.

The rules are tried in a fixed order and the first that fits decides: blanks,
then a single sign, then a word, then a number, then an annotation. Only the
third consults the vocabulary, so an entry that is not spelled like a word is
never found, and only the third and the fourth overlap: `cafe` has the digits of
a hexadecimal number and is a word all the same.

## Main definitions

* `Vocabulary`: The keywords and datatypes of a language.
* `Vocabulary.java`: Those of Java.
* `Vocabulary.kindOfWord`: What a word is.
* `Vocabulary.kindOf`: What any piece of undefined text is.
* `Vocabulary.resolve`: A fragment with its kind settled.
-/

namespace SourceTexture

/-- The words a language gives a meaning of its own. A word in both lists is a
    keyword. -/
structure Vocabulary where
  /-- The reserved words. -/
  keywords : List String
  /-- The names of the primitive types. -/
  datatypes : List String

/-- Whether the text is a run of blanks. -/
def isBlankRun (text : List Char) : Bool :=
  text ≠ [] && text.all Text.isBlank

/-- The signs that are symbols when they stand alone. -/
def symbols : List Char :=
  ['+', '*', '~', '#', '-', '.', ':', ',', ';', '?', '=', ')', '(', '/', '&', '%', '!', '{', '}',
    '[', ']', '<', '>', '|']

/-- Whether the text is a single sign. -/
def isSymbol : List Char → Bool
  | [c] => symbols.contains c
  | _ => false

/-- Whether a word may begin with the character: an ASCII letter or an
    underscore. -/
def isWordStart (c : Char) : Bool :=
  c.isAlpha || c = '_'

/-- Whether a word may go on with the character: also with an ASCII digit. -/
def isWordPart (c : Char) : Bool :=
  isWordStart c || c.isDigit

/-- Whether the text is spelled like a word. -/
def isWord : List Char → Bool
  | [] => false
  | c :: cs => isWordStart c && cs.all isWordPart

/-- Whether the character is a digit of a number: an ASCII hexadecimal digit, or
    the `x` that announces such digits, wherever it stands. -/
def isNumeralDigit (c : Char) : Bool :=
  c.isDigit || ('a' ≤ c && c ≤ 'f') || ('A' ≤ c && c ≤ 'F') || c = 'x'

/-- Whether the character marks a number as a long one. -/
def isLongMark (c : Char) : Bool :=
  c = 'l' || c = 'L'

/-- Whether the text is spelled like a number: digits, and at most one mark for
    a long number behind them. No mark is a digit, so the longest run of digits
    leaves the mark and nothing else. -/
def isNumeral : List Char → Bool
  | [] => false
  | c :: cs =>
    isNumeralDigit c &&
      match cs.dropWhile isNumeralDigit with
      | [] => true
      | [mark] => isLongMark mark
      | _ => false

/-- Whether the text is led by an at sign. -/
def isAtWord : List Char → Bool
  | [] => false
  | c :: _ => c = '@'

namespace Vocabulary

/-- The words of Java. -/
def java : Vocabulary where
  keywords :=
    ["abstract", "assert", "break", "case", "catch", "class", "const", "continue", "default",
      "do", "else", "enum", "extends", "false", "final", "finally", "for", "goto", "if",
      "implements", "import", "instanceof", "interface", "native", "new", "null", "package",
      "private", "protected", "public", "return", "static", "strictfp", "super", "switch",
      "synchronized", "this", "threadsafe", "throw", "throws", "transient", "true", "try",
      "volatile", "while"]
  datatypes :=
    ["boolean", "byte", "char", "double", "float", "int", "long", "short", "void"]

/-- What a word is: a keyword, failing that a datatype, failing that an
    identifier. -/
def kindOfWord (v : Vocabulary) (word : List Char) : Kind :=
  if String.ofList word ∈ v.keywords then .keyword
  else if String.ofList word ∈ v.datatypes then .datatype
  else .identifier

/-- What a piece of undefined text is by its spelling. Text no rule fits stays
    undefined. -/
def kindOf (v : Vocabulary) (text : List Char) : Kind :=
  if isBlankRun text then .space
  else if isSymbol text then .symbol
  else if isWord text then v.kindOfWord text
  else if isNumeral text then .numeric
  else if isAtWord text then .atWord
  else .undefined

/-- The fragment with its kind settled. Only an undefined one is in question. -/
def resolve (v : Vocabulary) (f : Fragment) : Fragment :=
  if f.kind = .undefined then { f with kind := v.kindOf f.content } else f

end Vocabulary

end SourceTexture
