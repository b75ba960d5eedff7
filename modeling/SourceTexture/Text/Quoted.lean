import SourceTexture.Text.GraphemeExtend
import SourceTexture.Text.Unprintable

/-!
# Quoted text

Text on one line, between double quotes, with nothing in it that a reader could
miss.

A quote and a backslash are led by a backslash, since bare they would end the
text or begin an escape. The null character, the tab and the two line break
characters have short escapes of their own. Every other character that would
not show by itself is spelled by its code point in braces. All the rest stands
for itself, so ordinary source text stays readable.

## Main definitions

* `Quoted.hexDigits`: A number in lower-case hexadecimal.
* `Quoted.isHidden`: Whether a character would not show by itself.
* `Quoted.escape`: How one character is written.
* `quoted`: A text between quotes.
-/

namespace SourceTexture

namespace Quoted

/-- The lower-case hexadecimal digits of a number, none of them in vain. -/
def hexDigits (n : Nat) : List Char :=
  Nat.toDigits 16 n

/-- The Hangul fillers. They count as letters, but each stands where a letter is
    missing and shows nothing. -/
def isFiller (c : Char) : Bool :=
  c = '\u115F' || c = '\u1160' || c = '\u3164' || c = '\uFFA0'

/-- The halfwidth sound marks. They belong to the syllable before them, but take
    a place of their own, so they show wherever they stand. -/
def isHalfwidthMark (c : Char) : Bool :=
  c = '\uFF9E' || c = '\uFF9F'

/-- Whether a character has to be spelled by its code point: it merges with its
    neighbour, or it has no visible form. -/
def isHidden (c : Char) : Bool :=
  extendsGrapheme c && !isHalfwidthMark c || isFiller c || isUnprintable c

/-- How one character is written between quotes. -/
def escape (c : Char) : List Char :=
  match c with
  | '\x00' => ['\\', '0']
  | '\t' => ['\\', 't']
  | '\r' => ['\\', 'r']
  | '\n' => ['\\', 'n']
  | '\\' => ['\\', '\\']
  | '"' => ['\\', '"']
  | c => if isHidden c then ['\\', 'u', '{'] ++ hexDigits c.toNat ++ ['}'] else [c]

end Quoted

/-- The text between double quotes, every character written as
    `Quoted.escape` says. -/
def quoted (text : List Char) : List Char :=
  '"' :: text.flatMap Quoted.escape ++ ['"']

end SourceTexture
