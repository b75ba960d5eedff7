/-!
# Paths

How the text of a path is read.

A path is a row of names with slashes between them. Slashes may be doubled
without effect; one in front means that the way starts at the root, and one
behind means that a directory is expected. The empty text is no path.

## Main definitions

* `Name`: The name of a directory entry.
* `Path`: A row of names, where it starts, and what it expects at its end.
* `Path.parse?`: The path a text spells.
* `Path.fileName?`: The name of the entry a path ends at.
* `Path.extension?`: What follows the last dot of that name.

## Theorems

* `Path.parse?_eq_none_iff`: Only the empty text is no path.
-/

namespace SourceTexture

/-- The name of a directory entry. -/
abbrev Name := List Char

/-- A way through directories. -/
structure Path where
  /-- Whether the way starts at the root. -/
  absolute : Bool
  /-- The names on the way, none of them empty. -/
  names : List Name
  /-- Whether a slash at the end asks for a directory. -/
  closed : Bool
  deriving DecidableEq

namespace Path

/-- The name before the first slash, and the names between the slashes. -/
def split : List Char → Name × List Name
  | [] => ([], [])
  | c :: text =>
    let (first, others) := split text
    if c = '/' then ([], first :: others) else (c :: first, others)

/-- The path a text spells, if it is not empty. -/
def parse? (text : List Char) : Option Path :=
  if text = [] then none
  else
    let (first, others) := split text
    some
      { absolute := text.head? = some '/'
        names := (first :: others).filter (· ≠ [])
        closed := text.getLast? = some '/' }

/-- The name of the entry the path ends at. A step on the spot does not count;
    a path that ends with a step up has none. -/
def fileName? (p : Path) : Option Name :=
  ((p.names.filter (· ≠ ['.'])).getLast?).filter (· ≠ ['.', '.'])

/-- What follows the last dot of a name. The dot needs something before it: one
    in front only hides the entry. -/
def nameExtension? (name : Name) : Option Name :=
  let rest := name.reverse.dropWhile (· ≠ '.')
  if rest.length ≤ 1 then none else some (name.drop rest.length)

/-- The extension of the entry the path ends at. -/
def extension? (p : Path) : Option Name :=
  p.fileName?.bind nameExtension?

/-- Only the empty text is no path. -/
theorem parse?_eq_none_iff (text : List Char) : parse? text = none ↔ text = [] := by
  by_cases h : text = []
  · simp only [parse?, h, if_true]
  · simp only [parse?, h, if_false, reduceCtorEq]

end Path

end SourceTexture
