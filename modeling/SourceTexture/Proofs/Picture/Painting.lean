import SourceTexture.Picture.Image

/-!
# Painting

What a pixel shows once a layout is rendered.

Rendering fills areas one by one and keeps a whole picture all the while. A
single pixel has a simpler history: it begins with the background, and every area
that covers it gives it a new colour. `Image.shade` is that history, and
`Layout.pixel?_render` says that it is the history of every pixel of the canvas.

The one thing that can go wrong is settled before the first area is filled, and
it concerns each box by itself. A box is addressable if the edge at which its
paint begins lies within the limit, and a layout of addressable boxes is always
rendered.

## Main definitions

* `Area.Covers`: A pixel lies in an area.
* `Area.Within`: An area lies inside the rectangle of a box.
* `Box.Addressable`: The paint of a box begins within the limit.
* `Box.painted`: What an addressable box paints.
* `Image.shade`: The colour of a pixel under areas painted in turn.

## Theorems

* `Box.paintArea_eq_ok`: An addressable box has an area to paint.
* `Box.right_painted`, `Box.bottom_painted`: Paint ends at the edges of its box.
* `Box.painted_within`: A box is painted inside its rectangle.
* `Image.pixel?_blank`: The pixels of an empty canvas.
* `Image.pixel?_fillAll`: Filling areas shades every pixel.
* `Layout.render_eq_ok`: Addressable boxes are rendered.
* `Layout.pixel?_render`: The pixels of a rendered layout.
-/

namespace SourceTexture

/-- Whether the pixel in column `x` of row `y` lies in the area. -/
def Area.Covers (a : Area) (x y : Nat) : Prop :=
  (a.x.val ≤ x ∧ x < a.right.val) ∧ a.y.val ≤ y ∧ y < a.bottom.val

instance (a : Area) (x y : Nat) : Decidable (a.Covers x y) :=
  inferInstanceAs (Decidable (_ ∧ _))

/-- Whether an area lies inside the rectangle of a box. -/
structure Area.Within (a : Area) (b : Box) : Prop where
  /-- It does not begin to the left of the box. -/
  left : b.x.val ≤ a.x.val
  /-- It does not end to the right of the box. -/
  right : a.right.val ≤ b.right.val
  /-- It does not begin above the box. -/
  top : b.y.val ≤ a.y.val
  /-- It does not end below the box. -/
  bottom : a.bottom.val ≤ b.bottom.val

/-- Half an extent is within the limit, so it is not rounded. -/
theorem Extent.val_clamp_half (a : Extent) : (clamp (a.val / 2)).val = a.val / 2 := by
  have hle := a.val_le
  exact val_clamp_of_le (by omega)

namespace Box

/-- The edge at which the paint of a box begins lies within the limit. Only boxes
    of delimiters are painted from an edge that is not their own. -/
def Addressable (b : Box) : Prop :=
  b.fragment.kind = .delimiter → b.y.val + (b.height.val - b.height.val / 2) ≤ Extent.limit

/-- What an addressable box paints: the lower half of delimiters, and the whole of
    any other box. -/
def painted (b : Box) : Area :=
  if b.fragment.kind = .delimiter then
    ⟨b.x, Extent.clamp (b.y.val + (b.height.val - b.height.val / 2)), b.width,
      Extent.clamp (b.height.val / 2)⟩
  else ⟨b.x, b.y, b.width, b.height⟩

/-- An addressable box has its area, with the upper edge that was added up exactly. -/
theorem paintArea_eq_ok {b : Box} (h : b.Addressable) : b.paintArea = .ok b.painted := by
  by_cases hkind : b.fragment.kind = .delimiter
  · have htop : Extent.ofNat? (b.y.val + (b.height.val - (Extent.clamp (b.height.val / 2)).val))
        = some (Extent.clamp (b.y.val + (b.height.val - b.height.val / 2))) := by
      rw [Extent.val_clamp_half, Extent.ofNat?_of_le (h hkind)]
    rw [paintArea, painted, if_pos hkind, if_pos hkind]
    simp only [htop]
  · rw [paintArea_of_ne_delimiter hkind, painted, if_neg hkind]

/-- Paint ends at the right edge of its box. -/
theorem right_painted (b : Box) : b.painted.right = b.right := by
  rw [painted]
  split <;> rfl

/-- Paint ends at the lower edge of its box, also where it does not begin at the
    upper one. -/
theorem bottom_painted (b : Box) : b.painted.bottom = b.bottom := by
  rw [painted]
  split
  · ext
    -- What the upper edge gains the height loses.
    simp only [Area.bottom, bottom, Extent.val_add, Extent.val_clamp]
    omega
  · rfl

/-- A box is painted inside its rectangle. -/
theorem painted_within (b : Box) : b.painted.Within b where
  left := by
    rw [painted]
    split <;> exact Nat.le_refl _
  right := Nat.le_of_eq (congrArg Extent.val b.right_painted)
  top := by
    rw [painted]
    split
    · -- The edge in the middle is further down, and the limit is not above anything.
      have hy := b.y.val_le
      simp only [Extent.val_clamp]
      omega
    · exact Nat.le_refl _
  bottom := Nat.le_of_eq (congrArg Extent.val b.bottom_painted)

end Box

namespace Image

/-- The colour of a pixel once areas are painted over it in turn. -/
def shade (x y : Nat) (base : Color) (areas : List (Area × Color)) : Color :=
  areas.foldl (fun below (a, c) => if a.Covers x y then c else below) base

theorem shade_cons (x y : Nat) (base : Color) (a : Area) (c : Color)
    (areas : List (Area × Color)) :
    shade x y base ((a, c) :: areas) = shade x y (if a.Covers x y then c else base) areas := rfl

theorem fillAll_cons (image : Image) (a : Area) (c : Color) (areas : List (Area × Color)) :
    image.fillAll ((a, c) :: areas) = (image.fill a c).fillAll areas := rfl

/-- Filling areas shades every pixel by itself. -/
theorem pixel?_fillAll (image : Image) (areas : List (Area × Color)) (x y : Nat) :
    (image.fillAll areas).pixel? x y = (image.pixel? x y).map (shade x y · areas) := by
  -- The picture below changes with every area, and the pixel with it.
  induction areas generalizing image with
  | nil => exact Option.map_id'.symm
  | cons ac areas ih =>
      rcases ac with ⟨a, c⟩
      have hfill : (image.fill a c).pixel? x y =
          if a.Covers x y then (image.pixel? x y).map fun _ => c else image.pixel? x y :=
        pixel?_fill image a c x y
      rw [fillAll_cons, ih, hfill]
      simp only [shade_cons]
      by_cases hcovers : a.Covers x y
      · rw [if_pos hcovers, Option.map_map]
        simp only [if_pos hcovers]
        rfl
      · rw [if_neg hcovers]
        simp only [if_neg hcovers]

theorem size_fillAll (image : Image) (areas : List (Area × Color)) :
    (image.fillAll areas).width = image.width ∧ (image.fillAll areas).height = image.height := by
  induction areas generalizing image with
  | nil => exact ⟨rfl, rfl⟩
  | cons ac areas ih => exact ih (image.fill ac.1 ac.2)

/-- A blank canvas has its one colour everywhere inside its edges. -/
theorem pixel?_blank (width height : Extent) (c : Color) (x y : Nat) :
    (blank width height c).pixel? x y
      = if x < width.val ∧ y < height.val then some c else none := by
  rw [pixel?, blank]
  by_cases hempty : width = 0 ∨ height = 0
  · -- A canvas without extent keeps no rows at all.
    have hout : ¬ (x < width.val ∧ y < height.val) := by
      rw [Extent.eq_zero_iff, Extent.eq_zero_iff] at hempty
      omega
    simp only [if_pos hempty, if_neg hout]
    rfl
  · simp only [if_neg hempty]
    by_cases hy : y < height.val
    · rw [Array.getElem?_replicate, if_pos hy, Option.bind_some, Array.getElem?_replicate]
      simp only [hy, and_true]
    · rw [Array.getElem?_replicate, if_neg hy, Option.bind_none, if_neg fun h => hy h.2]

end Image

namespace Layout

/-- The areas of addressable boxes, with their colours. -/
theorem areas_eq_ok (l : Layout) (h : ∀ b ∈ l.boxes.toList, b.Addressable) :
    l.areas = .ok (l.boxes.toList.map fun b => (b.painted, b.color)) := by
  rw [areas]
  -- The size of the layout does not matter, so the induction is on the boxes alone.
  generalize l.boxes.toList = boxes at h
  induction boxes with
  | nil => rfl
  | cons b boxes ih =>
      rw [List.mapM_cons, ih fun c hc => h c (List.mem_cons_of_mem b hc),
        Box.paintArea_eq_ok (h b List.mem_cons_self)]
      rfl

theorem render_eq_ok (l : Layout) (p : Palette) (h : ∀ b ∈ l.boxes.toList, b.Addressable) :
    l.render p = .ok ((Image.blank l.width l.height p.background).fillAll
      (l.boxes.toList.map fun b => (b.painted, b.color))) := by
  rw [render, areas_eq_ok l h]
  rfl

/-- The picture of addressable boxes is as large as their layout, and each of its
    pixels has the colour that painting the boxes in turn gives it. -/
theorem pixel?_render (l : Layout) (p : Palette) (h : ∀ b ∈ l.boxes.toList, b.Addressable) :
    ∃ image, l.render p = .ok image ∧ image.width = l.width ∧ image.height = l.height ∧
      ∀ x y, image.pixel? x y =
        if x < l.width.val ∧ y < l.height.val then
          some (Image.shade x y p.background (l.boxes.toList.map fun b => (b.painted, b.color)))
        else none := by
  rcases Image.size_fillAll (Image.blank l.width l.height p.background)
    (l.boxes.toList.map fun b => (b.painted, b.color)) with ⟨hwidth, hheight⟩
  refine ⟨_, l.render_eq_ok p h, hwidth, hheight, fun x y => ?_⟩
  rw [Image.pixel?_fillAll, Image.pixel?_blank]
  split <;> rfl

end Layout

end SourceTexture
