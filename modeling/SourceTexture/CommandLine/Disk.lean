import SourceTexture.CommandLine.Path
import SourceTexture.Picture.Image
import SourceTexture.Picture.Png

/-!
# Disks

Directories and files, as far as reading sources and writing pictures depends
on them.

Every entry has one place, there are no links, and whoever runs the program may
read and write everything. What is left to go wrong is the way itself: a name on
it may be missing or may not be a directory, and what it ends at may be a
directory where a file is wanted.

A picture that was written is kept as the picture it is. Reading it back gives
its encoding.

## Main definitions

* `SystemError`: What can go wrong with a path.
* `Node`: What a place holds.
* `Disk`: The places that hold something, and the current directory.
* `Disk.read`: The bytes of a file.
* `Disk.write`: The disk with a picture written.
* `Disk.plant`: The disk with an entry and the directories it lies in.

## Theorems

* `Disk.node?_put`: Putting an entry changes one place.
-/

namespace SourceTexture

/-- What can go wrong with a path. -/
inductive SystemError where
  /-- A name on the way, or the last one, is missing. -/
  | notFound
  /-- A name that has to be a directory is not. -/
  | notDirectory
  /-- A directory stands where a file is wanted. -/
  | isDirectory
  /-- Anything else, in the words and with the number of the system. -/
  | other (text : String) (code : Nat)
  deriving DecidableEq

namespace SystemError

/-- What the system calls an error. -/
def text : SystemError → String
  | notFound => "No such file or directory"
  | notDirectory => "Not a directory"
  | isDirectory => "Is a directory"
  | other text _ => text

/-- The number of an error. -/
def code : SystemError → Nat
  | notFound => 2
  | notDirectory => 20
  | isDirectory => 21
  | other _ code => code

/-- The wording of an error. -/
def message (e : SystemError) : String :=
  e.text ++ " (os error " ++ toString e.code ++ ")"

end SystemError

/-- The names that lead to an entry from the root, the innermost first. -/
abbrev Place := List Name

/-- What a place holds. -/
inductive Node where
  /-- Other entries. -/
  | directory
  /-- Bytes. -/
  | file (bytes : List UInt8)
  /-- A picture that was written in the course of a run. -/
  | picture (image : Image)
  deriving DecidableEq

/-- The places that hold something, and the directory relative paths start
    from. -/
structure Disk where
  /-- What lies where. Of two entries for one place the first counts. -/
  nodes : List (Place × Node) := []
  /-- The current directory. -/
  here : Place := []
  deriving DecidableEq

namespace Disk

/-- What a place holds, if it holds anything. The root always holds
    directories. -/
def node? (d : Disk) (place : Place) : Option Node :=
  if place = [] then some .directory else d.nodes.lookup place

/-- The disk with something put in a place. -/
def put (d : Disk) (place : Place) (node : Node) : Disk :=
  { d with nodes := (place, node) :: d.nodes }

/-- One step on the way: from a directory to one of its entries, to itself, or
    to the directory it lies in. Whether the entry exists is not asked yet. -/
def step (d : Disk) (place : Place) (name : Name) : Except SystemError Place :=
  match d.node? place with
  | none => .error .notFound
  | some .directory =>
    if name = ['.'] then .ok place
    else if name = ['.', '.'] then .ok place.tail
    else .ok (name :: place)
  | some _ => .error .notDirectory

/-- Where a path starts. -/
def origin (d : Disk) (p : Path) : Place :=
  if p.absolute then [] else d.here

/-- Where a path leads. -/
def resolve (d : Disk) (p : Path) : Except SystemError Place :=
  p.names.foldlM d.step (d.origin p)

/-- The bytes of the file a path leads to. -/
def read (d : Disk) (path : List Char) : Except SystemError (List UInt8) :=
  match Path.parse? path with
  | none => .error .notFound
  | some p => do
    let place ← d.resolve p
    match d.node? place with
    | none => .error .notFound
    | some .directory => .error .isDirectory
    | some (.file bytes) => if p.closed then .error .notDirectory else .ok bytes
    | some (.picture image) => if p.closed then .error .notDirectory else .ok image.toPng.toList

/-- The disk with a picture written to where a path leads. A file that lies there
    already is replaced; a path that asks for a directory is refused even if
    nothing lies there. -/
def write (d : Disk) (path : List Char) (image : Image) : Except SystemError Disk :=
  match Path.parse? path with
  | none => .error .notFound
  | some p => do
    let place ← d.resolve p
    -- A slash at the end is refused before what lies there is looked at.
    if p.closed then .error .isDirectory
    else
      match d.node? place with
      | some .directory => .error .isDirectory
      | _ => .ok (d.put place (.picture image))

/-- The disk with an entry put in a place and directories in all the places on
    the way to it. -/
def plant (d : Disk) (place : Place) (node : Node) : Disk :=
  match place with
  | [] => d
  | name :: parent => (d.plant parent .directory).put (name :: parent) node

/-- The pictures written so far and the names under which they lie in the
    current directory, each place once. -/
def pictures (d : Disk) : List (List Char × Image) :=
  let places := (d.nodes.map (·.1)).eraseDups
  places.filterMap fun place =>
    match d.node? place with
    | some (.picture image) =>
      if d.here <:+ place then
        some (['/'].intercalate (place.take (place.length - d.here.length)).reverse, image)
      else none
    | _ => none

/-- Putting something in a place other than the root changes that place and no
    other. -/
theorem node?_put (d : Disk) (place other : Place) (node : Node) (h : place ≠ []) :
    (d.put place node).node? other = if other = place then some node else d.node? other := by
  -- The root is always a directory, whatever is stored in its place.
  by_cases h₁ : other = []
  · subst h₁
    rw [node?, if_pos rfl, if_neg (Ne.symm h), node?, if_pos rfl]
  · rw [node?, if_neg h₁, node?, if_neg h₁]
    by_cases h₂ : other = place
    · subst h₂
      simp only [put, List.lookup_cons_self, if_true]
    · have h₃ : (other == place) = false := by simpa only [beq_eq_false_iff_ne] using h₂
      simp only [put, List.lookup_cons, h₃, h₂, if_false]

end Disk

end SourceTexture
