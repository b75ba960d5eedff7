import SourceTexture.Picture.Box
import SourceTexture.Picture.Geometry

/-!
# Layouts

Where the fragments of a text lie on the canvas.

A layout is a sequence of boxes in the order in which they are painted, and the
size of the smallest canvas at the origin that holds them all. The size is kept
up to date as boxes are added, so it can be asked for at any time.

Fragments are laid out as the text was written: a line break starts a new row
at the left edge, and everything else becomes a box to the right of the one
before. Line breaks themselves are not drawn.

## Main definitions

* `Layout`: Boxes in painting order, with their bounding size.
* `Layout.push`: A layout with one more box on top.
* `Cursor`: How far the placing of fragments has come.
* `Cursor.place`: Placing one more fragment.
* `Layout.ofFragments`: The layout of a list of fragments.
-/

namespace SourceTexture

/-- Boxes in painting order, and the size of the canvas that holds them. -/
structure Layout where
  /-- The boxes, the first to be painted first. -/
  boxes : Array Box := #[]
  /-- The width of the canvas. -/
  width : Extent := 0
  /-- The height of the canvas. -/
  height : Extent := 0
  deriving DecidableEq

namespace Layout

/-- Adds a box on top of the others and widens the canvas to hold it. -/
def push (l : Layout) (b : Box) : Layout where
  boxes := l.boxes.push b
  width := max l.width b.right
  height := max l.height b.bottom

/-- The layout of boxes that are painted in the given order. -/
def ofBoxes (boxes : List Box) : Layout :=
  boxes.foldl push {}

end Layout

/-- How far the placing of fragments has come: the place of the next box, and
    the boxes already placed. -/
structure Cursor where
  /-- The left edge of the next box. -/
  x : Extent := 0
  /-- The row of the next box, counted from zero. -/
  row : Extent := 0
  /-- The boxes placed so far. -/
  layout : Layout := {}
  deriving DecidableEq

namespace Cursor

/-- The box a fragment gets at this place. -/
def boxFor (g : Geometry) (p : Palette) (c : Cursor) (f : Fragment) : Box where
  x := c.x
  y := g.rowTop c.row
  width := g.widthOf f
  height := g.lineHeight
  color := p.color f.kind
  fragment := f

/-- Places one more fragment. A line break moves to the next row whatever its
    text; any other fragment gets a box, even an empty one. -/
def place (g : Geometry) (p : Palette) (c : Cursor) (f : Fragment) : Cursor :=
  if f.kind = .lineFeed then { c with x := 0, row := c.row + 1 }
  else
    { c with
      x := c.x + g.widthOf f + g.boxGap
      layout := c.layout.push (c.boxFor g p f) }

end Cursor

/-- The layout of a list of fragments. -/
def Layout.ofFragments (g : Geometry) (p : Palette) (fragments : List Fragment) : Layout :=
  (fragments.foldl (Cursor.place g p) {}).layout

/-- The number of rows a list of fragments takes, empty ones included. -/
def rowCount (fragments : List Fragment) : Extent :=
  Extent.clamp (fragments.countP (·.kind = .lineFeed)) + 1

end SourceTexture
