import SourceTexture.Fragment.Basic
import SourceTexture.Picture.Extent

/-!
# Geometry

How large a piece of text is drawn.

Three extents settle every measure of a picture: the width of a character, the
height of a line, and the gap left between neighbours in either direction. All
arithmetic is that of extents, so oversized pictures stop at the limit.

## Main definitions

* `Geometry`: The three extents, four, four and zero unless given.
* `Geometry.widthOf`: The width of a fragment.
* `Geometry.rowTop`: The upper edge of a row.
-/

namespace SourceTexture

/-- The pixel measures of a picture. -/
structure Geometry where
  /-- The width of one character. -/
  charWidth : Extent := 4
  /-- The height of every box. -/
  lineHeight : Extent := 4
  /-- The gap between neighbouring boxes and between neighbouring rows. -/
  boxGap : Extent := 0
  deriving DecidableEq

namespace Geometry

/-- The width of a fragment: as many characters as it holds. -/
def widthOf (g : Geometry) (f : Fragment) : Extent :=
  Extent.clamp f.content.length * g.charWidth

/-- The upper edge of a row, rows being counted from zero. -/
def rowTop (g : Geometry) (row : Extent) : Extent :=
  row * (g.lineHeight + g.boxGap)

end Geometry

end SourceTexture
