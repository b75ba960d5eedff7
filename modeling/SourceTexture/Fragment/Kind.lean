/-!
# Kinds

What a piece of source text can be. Every fragment carries one kind, a palette
gives one colour per kind, and the order of `Kind.all` is the order in which
both are listed.

## Main definitions

* `Kind`: The fourteen kinds.
* `Kind.all`: Every kind, in order.
* `Kind.index`: The position of a kind in that order.
* `Kind.mergeable`: Whether neighbours of this kind may be joined.
* `Kind.name`: The name a kind is printed under.

## Theorems

* `Kind.all_index`: A kind stands in the list of all kinds at its index.
* `Kind.name_injective`: Different kinds are printed under different names.
-/

namespace SourceTexture

/-- What a piece of source text is. -/
inductive Kind where
  /-- Not yet resolved, or beyond resolving. -/
  | undefined
  /-- Text of a `//` comment. -/
  | lineComment
  /-- Text of a `/* */` comment, which may span lines. -/
  | blockComment
  /-- Text between double quotes, quotes included. -/
  | stringLiteral
  /-- Text between single quotes, quotes included. -/
  | characterLiteral
  /-- A run of punctuation, or a slash that opens no comment. -/
  | delimiter
  /-- A word that is neither a keyword nor a datatype. -/
  | identifier
  /-- A reserved word. -/
  | keyword
  /-- The name of a primitive type. -/
  | datatype
  /-- A single sign outside the delimiters. -/
  | symbol
  /-- Blanks between other things. -/
  | space
  /-- A decimal or hexadecimal number. -/
  | numeric
  /-- A word led by an at sign: an annotation. -/
  | atWord
  /-- A line break. -/
  | lineFeed
  deriving DecidableEq

namespace Kind

/-- Every kind, in the order palettes list them. -/
def all : List Kind :=
  [undefined, lineComment, blockComment, stringLiteral, characterLiteral, delimiter, identifier,
    keyword, datatype, symbol, space, numeric, atWord, lineFeed]

/-- The position of a kind in the list of all kinds. -/
def index (k : Kind) : Nat :=
  k.ctorIdx

/-- Whether neighbours of this kind may be joined. Line breaks are counted one
    by one, and unresolved text keeps the cuts it was found with. -/
def mergeable : Kind → Bool
  | undefined => false
  | lineFeed => false
  | _ => true

/-- The name a kind is printed under. -/
def name : Kind → String
  | undefined => "Undefined"
  | lineComment => "LineComment"
  | blockComment => "BlockComment"
  | stringLiteral => "StringLiteral"
  | characterLiteral => "CharacterLiteral"
  | delimiter => "Delimiter"
  | identifier => "Identifier"
  | keyword => "Keyword"
  | datatype => "Datatype"
  | symbol => "Symbol"
  | space => "Space"
  | numeric => "Numeric"
  | atWord => "Annotation"
  | lineFeed => "LineFeed"

theorem all_index (k : Kind) : all[k.index]? = some k := by
  cases k <;> rfl

/-- Different kinds are printed under different names, so a printed fragment
    shows its kind. -/
theorem name_injective (j k : Kind) (h : j.name = k.name) : j = k := by
  revert h
  cases j <;> cases k <;> decide

end Kind

end SourceTexture
