import SourceTexture.Picture.Layout

/-!
# Images

The picture a layout gives.

The background goes down first and then every box in order, so where boxes lie
on top of each other the last one shows. A picture holds its rows from top to
bottom and each row its pixels from left to right. Filling an area is the same
operation twice over: a stretch of rows is changed by changing a stretch of
each. `getElem?_modifyBetween` says what that does to a single position, and is
all that need be known about it.

## Main definitions

* `modifyBetween`: An array with the elements of a stretch changed.
* `Image`: A size and the rows of pixels.
* `Image.blank`: A picture of one colour.
* `Image.pixel?`: The colour of a pixel.
* `Image.fill`: A picture with an area filled.
* `Image.fillAll`: A picture with areas filled in turn.
* `Layout.areas`: What the boxes of a layout paint.
* `Layout.render`: The picture of a layout.
* `Layout.picture`: The same, refused where there would be no pixel.

## Theorems

* `getElem?_modifyBetween`: A position is changed exactly if it lies in the
  stretch.
* `Image.pixel?_fill`: A pixel is filled exactly if it lies in the area.
-/

namespace SourceTexture

/-- The array with `f` applied to `n` elements from position `i` on. -/
def modifyFrom {α : Type} (f : α → α) (i : Nat) : Nat → Array α → Array α
  | 0, a => a
  | n + 1, a => modifyFrom f (i + 1) n (a.modify i f)

/-- The array with `f` applied to the elements at the positions from `first` up
    to but not including `last`. Positions past the end are passed over. -/
def modifyBetween {α : Type} (f : α → α) (first last : Nat) (a : Array α) : Array α :=
  modifyFrom f first (min last a.size - first) a

/-- The `n` elements from position `i` on are changed, each of them once. -/
theorem getElem?_modifyFrom {α : Type} (f : α → α) (i n j : Nat) (a : Array α) :
    (modifyFrom f i n a)[j]? = if i ≤ j ∧ j < i + n then a[j]?.map f else a[j]? := by
  induction n generalizing i a with
  | zero =>
      rw [modifyFrom, if_neg (by omega)]
  | succ n ih =>
      rw [modifyFrom, ih, Array.getElem?_modify]
      -- The first position is changed now, and the rest of the stretch
      -- does not touch it again.
      by_cases h : i = j
      · rw [if_pos h, if_neg (by omega), if_pos (by omega)]
      · rw [if_neg h]
        by_cases hj : i + 1 ≤ j ∧ j < i + 1 + n
        · rw [if_pos hj, if_pos (by omega)]
        · rw [if_neg hj, if_neg (by omega)]

/-- A position is changed exactly if it lies in the stretch. -/
theorem getElem?_modifyBetween {α : Type} (f : α → α) (first last j : Nat) (a : Array α) :
    (modifyBetween f first last a)[j]? =
      if first ≤ j ∧ j < last then a[j]?.map f else a[j]? := by
  rw [modifyBetween, getElem?_modifyFrom]
  by_cases h : first ≤ j ∧ j < last
  · by_cases hj : j < a.size
    · rw [if_pos (by omega), if_pos h]
    · rw [if_neg (by omega), if_pos h, Array.getElem?_eq_none (by omega), Option.map_none]
  · rw [if_neg (by omega), if_neg h]

/-- A picture: its size, and its rows from top to bottom, each from left to
    right. A picture that lacks extent in one direction has no pixels however
    far it reaches in the other, and keeps no rows. -/
@[ext]
structure Image where
  /-- The number of pixels in a row. -/
  width : Extent
  /-- The number of rows. -/
  height : Extent
  /-- The rows of pixels. -/
  rows : Array (Array Color)
  deriving DecidableEq

namespace Image

/-- A picture of one colour. -/
def blank (width height : Extent) (c : Color) : Image where
  width := width
  height := height
  rows :=
    if width = 0 ∨ height = 0 then #[]
    else Array.replicate height.val (Array.replicate width.val c)

/-- The colour of the pixel in column `x` of row `y`, if there is one. -/
def pixel? (image : Image) (x y : Nat) : Option Color :=
  image.rows[y]?.bind fun row => row[x]?

/-- The picture with an area filled. What lies outside the picture is passed
    over. -/
def fill (image : Image) (a : Area) (c : Color) : Image :=
  { image with
    rows :=
      modifyBetween (modifyBetween (fun _ => c) a.x.val a.right.val) a.y.val a.bottom.val
        image.rows }

/-- The picture with areas filled in turn, each in its colour. -/
def fillAll (image : Image) (areas : List (Area × Color)) : Image :=
  areas.foldl (fun image (a, c) => image.fill a c) image

/-- A pixel is filled exactly if it lies in the area. -/
theorem pixel?_fill (image : Image) (a : Area) (c : Color) (x y : Nat) :
    (image.fill a c).pixel? x y =
      if (a.x.val ≤ x ∧ x < a.right.val) ∧ a.y.val ≤ y ∧ y < a.bottom.val
      then (image.pixel? x y).map fun _ => c else image.pixel? x y := by
  simp only [pixel?, fill, getElem?_modifyBetween]
  by_cases hy : a.y.val ≤ y ∧ y < a.bottom.val
  · rw [if_pos hy]
    -- The row is among those of the area, though the picture may not have it.
    cases image.rows[y]? with
    | none => simp only [Option.map_none, Option.bind_none, ite_self]
    | some row => simp only [Option.map_some, Option.bind_some, getElem?_modifyBetween, hy,
        and_true]
  · rw [if_neg hy, if_neg (fun h => hy h.2)]

end Image

namespace Layout

/-- What the boxes of a layout paint, in order: areas with their colours. -/
def areas (l : Layout) : Except RenderError (List (Area × Color)) :=
  l.boxes.toList.mapM fun b => do return (← b.paintArea, b.color)

/-- The picture of a layout on a canvas of its size: the background, and on it
    every box in order. All areas are settled before the first is filled. -/
def render (l : Layout) (p : Palette) : Except RenderError Image := do
  let areas ← l.areas
  return (Image.blank l.width l.height p.background).fillAll areas

/-- The picture of a layout, refused where the canvas has no pixels. -/
def picture (l : Layout) (p : Palette) : Except RenderError Image :=
  if l.width = 0 ∨ l.height = 0 then .error (.emptyCanvas l.width l.height) else l.render p

end Layout

end SourceTexture
