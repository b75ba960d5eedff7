import SourceTexture.Proofs.Picture.SamePicture

/-!
# The uppermost box

What a pixel shows, told without painting anything: the last box that has paint
there.

Boxes may be pushed in any order, lie on top of each other, be empty, or end at
the limit. All the same a picture of them has one rule. A box shows where its
paint is, unless a later one shows there as well, and where no box has paint the
background is seen. To find the colour of a pixel one asks for the last box that
paints it.

The canvas is as large as the furthest edges of the boxes, and the paint of a box
ends at the edges of the box. So no box reaches out of the canvas, and whoever
paints pixel by pixel never leaves it. Such a painter would cut every area at the
edge of the canvas before beginning, to be safe, and would be refused a pixel that
is not there. Neither happens: there is nothing to cut off, no pixel is refused,
and the picture is the one that filling whole areas gives.

## Main definitions

* `Image.put?`: A picture with one pixel painted, if there is that pixel.
* `Area.pixels`: The pixels of an area on a canvas, row by row.
* `Image.fillByPixel?`, `Image.fillAllByPixel?`: Areas painted pixel by pixel.
* `Box.ShowsAt`: A box has paint at a pixel.
* `Box.uppermost`: The last box with paint at a pixel.

## Theorems

* `Image.fillByPixel?_eq`: Painting pixel by pixel fills an area of the canvas.
* `Box.covers_painted`: Where the paint of a box is.
* `Box.shade_eq_uppermost`: Painting in turn leaves the uppermost box.
* `Layout.paints_uppermost`: A rendered layout shows the uppermost boxes.
-/

namespace SourceTexture

/-! ### Pixel by pixel -/

/-- Changing elements one after the other, as many as a stretch has, is changing the
    stretch. -/
theorem modifyFrom_eq_modifyBetween {α : Type} (f : α → α) (first last : Nat) (a : Array α) :
    modifyFrom f first (last - first) a = modifyBetween f first last a := by
  apply Array.ext_getElem?
  intro j
  rw [getElem?_modifyFrom, getElem?_modifyBetween]
  by_cases h : first ≤ j ∧ j < last
  · rw [if_pos (by omega), if_pos h]
  · rw [if_neg (by omega), if_neg h]

theorem foldl_modify_range' {α : Type} (f : α → α) (first n : Nat) (a : Array α) :
    (List.range' first n).foldl (fun a j => a.modify j f) a = modifyFrom f first n a := by
  induction n generalizing first a with
  | zero => rfl
  | succ n ih => rw [List.range'_succ, List.foldl_cons, ih, modifyFrom]

/-- Changing one element again and again is changing it once by all the changes. -/
theorem foldl_modify_at {α β : Type} (f : β → α → α) (j : Nat) (bs : List β) (a : Array α) :
    bs.foldl (fun a b => a.modify j (f b)) a
      = a.modify j fun x => bs.foldl (fun x b => f b x) x := by
  apply Array.ext_getElem?
  intro k
  induction bs generalizing a with
  | nil =>
      rw [List.foldl_nil, Array.getElem?_modify]
      split
      · exact Option.map_id'.symm
      · rfl
  | cons b bs ih =>
      -- In position `j` the changes pile up, and nothing happens in any other.
      rw [List.foldl_cons, ih, Array.getElem?_modify, Array.getElem?_modify,
        Array.getElem?_modify]
      by_cases h : j = k
      · simp only [if_pos h, Option.map_map]
        rfl
      · simp only [if_neg h]

/-- The pixels of an area on a canvas, row by row and each row from left to right.
    What reaches past the canvas is cut off. -/
def Area.pixels (a : Area) (width height : Extent) : List (Nat × Nat) :=
  (List.range' a.y.val (min a.bottom.val height.val - a.y.val)).flatMap fun y =>
    (List.range' a.x.val (min a.right.val width.val - a.x.val)).map fun x => (x, y)

/-- What is left after cutting lies on the canvas. -/
theorem Area.mem_pixels {a : Area} {width height : Extent} {pixel : Nat × Nat}
    (h : pixel ∈ a.pixels width height) : pixel.1 < width.val ∧ pixel.2 < height.val := by
  rcases List.mem_flatMap.mp h with ⟨y, hy, hpixel⟩
  rcases List.mem_map.mp hpixel with ⟨x, hx, rfl⟩
  rw [List.mem_range'_1] at hx hy
  omega

namespace Image

/-- The picture with one of its pixels in another colour. -/
def repaint (c : Color) (image : Image) (pixel : Nat × Nat) : Image :=
  { image with rows := image.rows.modify pixel.2 (·.modify pixel.1 fun _ => c) }

/-- The picture with one pixel painted. Where the picture has no such pixel this is
    refused. -/
def put? (c : Color) (image : Image) (pixel : Nat × Nat) : Option Image :=
  if pixel.1 < image.width.val ∧ pixel.2 < image.height.val then some (image.repaint c pixel)
  else none

/-- The picture with an area painted pixel by pixel. -/
def fillByPixel? (image : Image) (a : Area) (c : Color) : Option Image :=
  (a.pixels image.width image.height).foldlM (put? c) image

/-- The picture with areas painted in turn, each pixel by pixel. -/
def fillAllByPixel? (image : Image) (areas : List (Area × Color)) : Option Image :=
  areas.foldlM (fun image (a, c) => image.fillByPixel? a c) image

/-- Painting pixels is never refused if the picture has all of them. -/
theorem foldlM_put? (c : Color) {pixels : List (Nat × Nat)} {image : Image}
    (h : ∀ pixel ∈ pixels, pixel.1 < image.width.val ∧ pixel.2 < image.height.val) :
    pixels.foldlM (put? c) image = some (pixels.foldl (repaint c) image) := by
  -- Painting does not change the size, so what is a pixel now is one later.
  induction pixels generalizing image with
  | nil => rfl
  | cons pixel pixels ih =>
      rcases List.forall_mem_cons.mp h with ⟨hpixel, hpixels⟩
      rw [List.foldlM_cons, List.foldl_cons, put?, if_pos hpixel]
      exact ih hpixels

/-- Painting pixels changes rows and leaves the size of the picture alone. -/
theorem foldl_repaint (c : Color) (pixels : List (Nat × Nat)) (image : Image) :
    pixels.foldl (repaint c) image = { image with
      rows := pixels.foldl
        (fun rows pixel => rows.modify pixel.2 (·.modify pixel.1 fun _ => c)) image.rows } := by
  induction pixels generalizing image with
  | nil => rfl
  | cons pixel pixels ih => rw [List.foldl_cons, ih, List.foldl_cons, repaint]

/-- Painting an area pixel by pixel is filling it, if the area does not reach past
    the picture. -/
theorem fillByPixel?_eq (image : Image) {a : Area} (c : Color)
    (hright : a.right.val ≤ image.width.val) (hbottom : a.bottom.val ≤ image.height.val) :
    image.fillByPixel? a c = some (image.fill a c) := by
  rw [fillByPixel?, foldlM_put? c fun _ => Area.mem_pixels, foldl_repaint, fill, Area.pixels,
    Nat.min_eq_left hright, Nat.min_eq_left hbottom, List.foldl_flatMap]
  -- The inner loop works on one row, and both loops are changes of a stretch.
  simp only [List.foldl_map, foldl_modify_at (fun x (row : Array Color) => row.modify x fun _ => c),
    foldl_modify_range', modifyFrom_eq_modifyBetween]

theorem fillAllByPixel?_cons (image : Image) (a : Area) (c : Color)
    (areas : List (Area × Color)) :
    image.fillAllByPixel? ((a, c) :: areas)
      = (image.fillByPixel? a c).bind (·.fillAllByPixel? areas) := rfl

/-- So it is with several areas, none of which reaches past the picture. -/
theorem fillAllByPixel?_eq {areas : List (Area × Color)} {image : Image}
    (h : ∀ ac ∈ areas, ac.1.right.val ≤ image.width.val ∧ ac.1.bottom.val ≤ image.height.val) :
    image.fillAllByPixel? areas = some (image.fillAll areas) := by
  induction areas generalizing image with
  | nil => rfl
  | cons ac areas ih =>
      rcases List.forall_mem_cons.mp h with ⟨hac, hareas⟩
      rcases ac with ⟨a, c⟩
      -- Filling the first area leaves the size as it was, so the others still fit.
      rw [fillAllByPixel?_cons, fillByPixel?_eq image c hac.1 hac.2, Option.bind_some,
        fillAll_cons]
      exact ih hareas

end Image

/-! ### The last box -/

namespace Box

/-- Whether a box has paint at the pixel in column `x` of row `y`: from its left edge
    to its right one, and from its upper edge to its lower one. Delimiters have paint
    from the middle downwards, and an odd row in the middle has none. -/
def ShowsAt (b : Box) (x y : Nat) : Prop :=
  (b.x.val ≤ x ∧ x < min Extent.limit (b.x.val + b.width.val)) ∧
    b.y.val + (if b.fragment.kind = .delimiter then b.height.val - b.height.val / 2 else 0) ≤ y ∧
    y < min Extent.limit (b.y.val + b.height.val)

instance (b : Box) (x y : Nat) : Decidable (b.ShowsAt x y) :=
  inferInstanceAs (Decidable (_ ∧ _))

/-- The last of some boxes that has paint at a pixel. -/
def uppermost (boxes : List Box) (x y : Nat) : Option Box :=
  (boxes.filter fun b => b.ShowsAt x y).getLast?

/-- The paint of an addressable box covers the pixels at which the box shows. -/
theorem covers_painted {b : Box} (h : b.Addressable) (x y : Nat) :
    b.painted.Covers x y ↔ b.ShowsAt x y := by
  have hright : b.painted.right.val = min Extent.limit (b.x.val + b.width.val) := by
    rw [right_painted, right, Extent.val_add, Nat.min_comm]
  have hbottom : b.painted.bottom.val = min Extent.limit (b.y.val + b.height.val) := by
    rw [bottom_painted, bottom, Extent.val_add, Nat.min_comm]
  rw [Area.Covers, hright, hbottom, ShowsAt, painted]
  -- Only delimiters have a middle to begin at, and it is within the limit.
  by_cases hkind : b.fragment.kind = .delimiter
  · have htop := Extent.val_clamp_of_le (h hkind)
    simp only [if_pos hkind, htop]
  · simp only [if_neg hkind, Nat.add_zero]

/-- A box that is painted first shows where no later one does. -/
theorem uppermost_cons (b : Box) (boxes : List Box) (x y : Nat) :
    uppermost (b :: boxes) x y
      = if b.ShowsAt x y then some ((uppermost boxes x y).getD b) else uppermost boxes x y := by
  unfold uppermost
  by_cases h : b.ShowsAt x y
  · rw [List.filter_cons_of_pos (by rwa [decide_eq_true_eq]), List.getLast?_cons, if_pos h]
  · rw [List.filter_cons_of_neg (by rwa [decide_eq_true_eq]), if_neg h]

/-- Painting boxes in turn leaves the colour of the uppermost one at each pixel, and
    what was there before if none of them shows. -/
theorem shade_eq_uppermost {boxes : List Box} (h : ∀ b ∈ boxes, b.Addressable) (x y : Nat)
    (base : Color) :
    Image.shade x y base (boxes.map fun b => (b.painted, b.color))
      = ((uppermost boxes x y).map Box.color).getD base := by
  -- What lies below the remaining boxes changes with every box that shows.
  induction boxes generalizing base with
  | nil => rfl
  | cons b boxes ih =>
      rcases List.forall_mem_cons.mp h with ⟨hb, hboxes⟩
      rw [List.map_cons, Image.shade_cons, ih hboxes, uppermost_cons]
      simp only [covers_painted hb]
      by_cases hshows : b.ShowsAt x y
      · rw [if_pos hshows, if_pos hshows]
        cases uppermost boxes x y <;> rfl
      · rw [if_neg hshows, if_neg hshows]

end Box

namespace Layout

/-- A layout holds all its boxes. -/
theorem edges_le_size {boxes : List Box} {b : Box} (h : b ∈ boxes) :
    b.right.val ≤ (ofBoxes boxes).width.val ∧ b.bottom.val ≤ (ofBoxes boxes).height.val := by
  rw [width_ofBoxes, height_ofBoxes]
  exact ⟨le_largest (List.mem_map_of_mem h), le_largest (List.mem_map_of_mem h)⟩

/-- Boxes whose paint begins within the limit are rendered, however they lie. The
    picture has the size of their layout. The paint of every box ends within the
    picture, so nothing has to be cut off, and painting the boxes pixel by pixel
    never asks for a pixel that is not there and gives the same picture. Each pixel
    has the colour of the last box that shows there, or that of the background. -/
theorem paints_uppermost {boxes : List Box} (h : ∀ b ∈ boxes, b.Addressable) (p : Palette) :
    ∃ image, (ofBoxes boxes).render p = .ok image ∧
      (image.width = (ofBoxes boxes).width ∧ image.height = (ofBoxes boxes).height) ∧
      (∀ b ∈ boxes, b.paintArea = .ok b.painted ∧ b.painted.right.val ≤ image.width.val ∧
        b.painted.bottom.val ≤ image.height.val) ∧
      (Image.blank image.width image.height p.background).fillAllByPixel?
        (boxes.map fun b => (b.painted, b.color)) = some image ∧
      ∀ x y, image.pixel? x y =
        if x < image.width.val ∧ y < image.height.val then
          some (((Box.uppermost boxes x y).map Box.color).getD p.background)
        else none := by
  have hall : ∀ b ∈ (ofBoxes boxes).boxes.toList, b.Addressable := by
    rwa [toList_boxes_ofBoxes]
  -- The paint ends at the edges of its box, and the canvas reaches as far as these.
  have hinside : ∀ b ∈ boxes, b.painted.right.val ≤ (ofBoxes boxes).width.val ∧
      b.painted.bottom.val ≤ (ofBoxes boxes).height.val := by
    intro b hb
    rw [Box.right_painted, Box.bottom_painted]
    exact edges_le_size hb
  have hrender := render_eq_ok _ p hall
  rcases pixel?_render _ p hall with ⟨image, hok, hwidth, hheight, hpixel⟩
  rw [toList_boxes_ofBoxes] at hrender hpixel
  refine ⟨image, hok, ⟨hwidth, hheight⟩, ?_, ?_, ?_⟩
  · intro b hb
    rw [hwidth, hheight]
    exact ⟨Box.paintArea_eq_ok (h b hb), hinside b hb⟩
  · rw [hwidth, hheight, Image.fillAllByPixel?_eq, ← Except.ok.inj (hrender.symm.trans hok)]
    exact List.forall_mem_map.mpr hinside
  · intro x y
    rw [hpixel, hwidth, hheight, Box.shade_eq_uppermost h]

/-- A box over the whole canvas, as large as a canvas can be, and a box of delimiters
    on top of it that is cut off by the limit at its right edge and ends at the limit
    below. The upper one shows in its lower half, and to its left, and where its
    upper half is, the lower one does. -/
theorem paints_uppermost_at_limit :
    ∃ image, (ofBoxes
        [⟨0, 0, Extent.clamp Extent.limit, Extent.clamp Extent.limit, .literal, ⟨.numeric, ['1']⟩⟩,
          ⟨1, 4294967290, Extent.clamp Extent.limit, 5, .black, ⟨.delimiter, [';']⟩⟩]).render
          .standard = .ok image ∧
      image.pixel? 0 4294967294 = some .literal ∧ image.pixel? 1 4294967292 = some .literal ∧
      image.pixel? 1 4294967293 = some .black ∧ image.pixel? 4294967294 4294967294 = some .black ∧
      image.pixel? 4294967295 4294967294 = none := by
  rcases @paints_uppermost
    [⟨0, 0, Extent.clamp Extent.limit, Extent.clamp Extent.limit, .literal, ⟨.numeric, ['1']⟩⟩,
      ⟨1, 4294967290, Extent.clamp Extent.limit, 5, .black, ⟨.delimiter, [';']⟩⟩]
    (by unfold Box.Addressable; decide) .standard with ⟨image, hok, hsize, -, -, hpixel⟩
  rw [hsize.1, hsize.2] at hpixel
  exact ⟨image, hok, hpixel _ _, hpixel _ _, hpixel _ _, hpixel _ _, hpixel _ _⟩

end Layout

end SourceTexture
