import SourceTexture.Fragment.Basic
import SourceTexture.Picture.Extent
import SourceTexture.Picture.Palette

/-!
# Boxes

The coloured rectangle that stands for a fragment, and the part of it that is
painted.

A box of delimiters is painted in its lower half only. Punctuation is short and
dense; at full height it would outweigh the words around it. The upper edge of
the lower half is the one coordinate that is not allowed to stop at the limit:
where it cannot be addressed there is no area to paint, and the box is reported
instead of being painted in the wrong place.

## Main definitions

* `Box`: A rectangle with its colour and its fragment.
* `Box.right`, `Box.bottom`: The edges opposite the origin.
* `Area`: A rectangle to be filled.
* `Box.paintArea`: The area of a box that is painted.
* `RenderError`: Why a picture cannot be made.

## Theorems

* `Box.paintArea_of_ne_delimiter`: Any other box is painted whole.
-/

namespace SourceTexture

/-- A positioned, coloured rectangle that stands for one fragment. -/
@[ext]
structure Box where
  /-- The left edge. -/
  x : Extent
  /-- The upper edge. -/
  y : Extent
  /-- The extent to the right. -/
  width : Extent
  /-- The extent downwards. -/
  height : Extent
  /-- The colour the box is painted in. -/
  color : Color
  /-- The text the box stands for. -/
  fragment : Fragment
  deriving DecidableEq

/-- A rectangle to be filled. -/
@[ext]
structure Area where
  /-- The left edge. -/
  x : Extent
  /-- The upper edge. -/
  y : Extent
  /-- The extent to the right. -/
  width : Extent
  /-- The extent downwards. -/
  height : Extent
  deriving DecidableEq

/-- Why a picture cannot be made. -/
inductive RenderError where
  /-- The canvas has no pixels. -/
  | emptyCanvas (width height : Extent)
  /-- The lower half of a box begins past the limit. -/
  | overflow
  deriving DecidableEq

/-- The wording of an error. -/
def RenderError.message : RenderError → String
  | emptyCanvas width height =>
    "nothing to render: canvas is " ++ toString width.val ++ "x" ++ toString height.val
  | overflow => "attempt to add with overflow"

/-- The edge opposite the left one, itself outside the area. -/
def Area.right (a : Area) : Extent :=
  a.x + a.width

/-- The edge opposite the upper one, itself outside the area. -/
def Area.bottom (a : Area) : Extent :=
  a.y + a.height

namespace Box

/-- The edge opposite the left one, itself outside the box. -/
def right (b : Box) : Extent :=
  b.x + b.width

/-- The edge opposite the upper one, itself outside the box. -/
def bottom (b : Box) : Extent :=
  b.y + b.height

/-- The area of a box that is painted: the lower half of delimiters, rounded
    down in height and resting on the bottom of the row, and the whole of every
    other box. -/
def paintArea (b : Box) : Except RenderError Area :=
  if b.fragment.kind = .delimiter then
    let half := Extent.clamp (b.height.val / 2)
    match Extent.ofNat? (b.y.val + (b.height.val - half.val)) with
    | some top => .ok ⟨b.x, top, b.width, half⟩
    | none => .error .overflow
  else .ok ⟨b.x, b.y, b.width, b.height⟩

theorem paintArea_of_ne_delimiter {b : Box} (h : b.fragment.kind ≠ .delimiter) :
    b.paintArea = .ok ⟨b.x, b.y, b.width, b.height⟩ := by
  rw [paintArea, if_neg h]

end Box

end SourceTexture
