import SourceTexture.Fragment.Kind
import SourceTexture.Text.Quoted

/-!
# Fragments

A piece of source text together with its kind.

Text under analysis is a list of characters throughout the library; only lines
that are finished and on their way out are strings. Contents are compared, cut
and joined character by character, and a list is the form in which all three
are immediate.

Two fragments join only when they are of the same kind. A join across kinds
would have to invent a kind for the result, so it is refused, and the refusal
names both sides.

## Main definitions

* `Fragment`: Text with its kind.
* `Fragment.lineBreak`: The fragment of a line break.
* `Fragment.join`: One fragment continued by another of the same kind.
* `JoinError`: The refusal of a join across kinds.
* `Fragment.display`: A fragment on one line of output.

## Theorems

* `Fragment.join_of_kind_eq`: Fragments of one kind join, contents in order.
* `Fragment.join_of_kind_ne`: Fragments of two kinds do not.
-/

namespace SourceTexture

/-- A run of source text tagged with its kind. -/
@[ext]
structure Fragment where
  /-- What the text is. -/
  kind : Kind
  /-- The text itself. -/
  content : List Char
  deriving DecidableEq

/-- The refusal to join two fragments of different kinds. -/
structure JoinError where
  /-- The kind of the fragment that was to grow. -/
  left : Kind
  /-- The kind of the fragment that was to be added. -/
  right : Kind
  deriving DecidableEq

/-- The wording of a refused join. -/
def JoinError.message (e : JoinError) : String :=
  "incompatible fragment merge: " ++ e.left.name ++ " with " ++ e.right.name

namespace Fragment

/-- The fragment of a line break. -/
def lineBreak : Fragment := ⟨.lineFeed, ['\n']⟩

/-- The first fragment continued by the second. Only fragments of the same kind
    join. -/
def join (f g : Fragment) : Except JoinError Fragment :=
  if f.kind = g.kind then .ok ⟨f.kind, f.content ++ g.content⟩ else .error ⟨f.kind, g.kind⟩

/-- A fragment on one line: the name of its kind, and its text in quotes. -/
def display (f : Fragment) : String :=
  f.kind.name ++ "(" ++ String.ofList (quoted f.content) ++ ")"

theorem join_of_kind_eq {f g : Fragment} (h : f.kind = g.kind) :
    f.join g = .ok ⟨f.kind, f.content ++ g.content⟩ := by
  rw [join, if_pos h]

theorem join_of_kind_ne {f g : Fragment} (h : f.kind ≠ g.kind) :
    f.join g = .error ⟨f.kind, g.kind⟩ := by
  rw [join, if_neg h]

end Fragment

end SourceTexture
