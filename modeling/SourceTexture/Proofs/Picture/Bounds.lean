import SourceTexture.Proofs.Picture.Separation
import SourceTexture.Proofs.Picture.Uppermost

/-!
# Bounds

The size of a layout against the boxes that were pushed.

A layout keeps two measures and never looks at a box again. What they come to does
not show their history: they are the furthest right edge and the furthest lower edge
of all boxes so far, so the canvas they describe holds every box, and no canvas that
does is smaller in either direction. An empty box counts with the rest. It has no
pixel, but it has edges, and the canvas reaches out to them.

Being the smallest canvas settles the rest. A canvas that holds more boxes holds these
as well, so it is no smaller, and pushing a box never takes anything away from the
size. Two layouts of the same boxes hold each other's, in whatever order they were
pushed, so they have the same size. The order is not lost all the same, because a
layout gives its boxes back as they came.

## Main definitions

* `Box.FitsOn`: A canvas holds a box.
* `Layout.Bounds`: What a layout says about the boxes that were pushed.

## Theorems

* `Box.FitsOn.pixel`: A canvas that holds a box has all its pixels.
* `Layout.bounds_ofBoxes`: The size of a layout is that of the smallest canvas.
* `Layout.Bounds.size_le`: More boxes have no smaller size.
* `Layout.size_tight`: The same after every push, and in every order.
-/

namespace SourceTexture

/-- Whether a canvas of a size holds a box: neither of its far edges lies past the
    canvas. -/
structure Box.FitsOn (b : Box) (width height : Nat) : Prop where
  /-- The right edge does not. -/
  right : b.right.val ≤ width
  /-- The lower edge does not. -/
  bottom : b.bottom.val ≤ height

/-- The pixels of a box are pixels of a canvas that holds it. -/
theorem Box.FitsOn.pixel {b : Box} {width height x y : Nat} (h : b.FitsOn width height)
    (hpixel : b.Holds x y) : x < width ∧ y < height :=
  ⟨Nat.lt_of_lt_of_le hpixel.1.2 h.right, Nat.lt_of_lt_of_le hpixel.2.2 h.bottom⟩

namespace Layout

/-- What a layout says about the boxes that were pushed: which they are, how far they
    reach, and so how large a canvas has to be. -/
structure Bounds (l : Layout) (pushed : List Box) : Prop where
  /-- They are kept in the order in which they were pushed. -/
  boxes : l.boxes.toList = pushed
  /-- The width is the furthest right edge, and zero if there are none. -/
  width : l.width.val = largest (pushed.map fun b => b.right.val)
  /-- The height is the furthest lower edge, and zero if there are none. -/
  height : l.height.val = largest (pushed.map fun b => b.bottom.val)
  /-- The canvas holds every box. -/
  fits : ∀ b ∈ pushed, b.FitsOn l.width.val l.height.val
  /-- So it has every pixel of a box. -/
  pixel : ∀ b ∈ pushed, ∀ x y, b.Holds x y → x < l.width.val ∧ y < l.height.val
  /-- No smaller canvas holds all of them. -/
  least : ∀ w h, (∀ b ∈ pushed, b.FitsOn w h) → l.width.val ≤ w ∧ l.height.val ≤ h

/-- The size of a layout is that of the smallest canvas for its boxes. Any canvas that
    holds them reaches out to their furthest edges. -/
theorem bounds_ofBoxes (boxes : List Box) : (ofBoxes boxes).Bounds boxes := by
  have hfits : ∀ b ∈ boxes, b.FitsOn (ofBoxes boxes).width.val (ofBoxes boxes).height.val :=
    fun b hb => ⟨(edges_le_size hb).1, (edges_le_size hb).2⟩
  refine ⟨toList_boxes_ofBoxes boxes, width_ofBoxes boxes, height_ofBoxes boxes, hfits,
    fun b hb x y hpixel => (hfits b hb).pixel hpixel, fun w h hcanvas => ?_⟩
  rw [width_ofBoxes, height_ofBoxes]
  exact ⟨largest_le (List.forall_mem_map.mpr fun b hb => (hcanvas b hb).right),
    largest_le (List.forall_mem_map.mpr fun b hb => (hcanvas b hb).bottom)⟩

/-- A layout that has all the boxes of another is no smaller, because its canvas holds
    them. -/
theorem Bounds.size_le {l m : Layout} {bs cs : List Box} (hl : l.Bounds bs) (hm : m.Bounds cs)
    (h : ∀ b ∈ bs, b ∈ cs) : l.width.val ≤ m.width.val ∧ l.height.val ≤ m.height.val :=
  hl.least _ _ fun b hb => hm.fits b (h b hb)

/-- The size of a layout is tight. After every push the boxes are those pushed so far,
    in order, and the size is that of the smallest canvas that holds them. Neither side
    of it is ever taken back. It does not depend on the order in which boxes were
    pushed. -/
theorem size_tight (boxes : List Box) :
    (∀ pushed, pushed <+: boxes → (ofBoxes pushed).Bounds pushed ∧
      (ofBoxes pushed).width.val ≤ (ofBoxes boxes).width.val ∧
      (ofBoxes pushed).height.val ≤ (ofBoxes boxes).height.val) ∧
    ∀ others : List Box, others.Perm boxes →
      (ofBoxes others).width = (ofBoxes boxes).width ∧
      (ofBoxes others).height = (ofBoxes boxes).height := by
  have hboxes := bounds_ofBoxes boxes
  refine ⟨fun pushed hprefix => ?_, fun others hperm => ?_⟩
  · -- What has been pushed so far is among what is pushed in the end.
    have hpushed := bounds_ofBoxes pushed
    exact ⟨hpushed, hpushed.size_le hboxes fun b hb => hprefix.subset hb⟩
  · -- Each of the two layouts has all the boxes of the other one.
    have hothers := bounds_ofBoxes others
    have hle := hothers.size_le hboxes fun b hb => hperm.mem_iff.mp hb
    have hge := hboxes.size_le hothers fun b hb => hperm.mem_iff.mpr hb
    exact ⟨Extent.ext (Nat.le_antisymm hle.1 hge.1), Extent.ext (Nat.le_antisymm hle.2 hge.2)⟩

/-- A box that is cut off by the limit at its right edge, and below it an empty one. The
    first makes the canvas as wide as the limit, and the second makes it higher, also if
    it is pushed first. -/
theorem size_tight_empty_box :
    (ofBoxes [⟨4294967290, 2, 10, 3, .black, ⟨.numeric, ['1']⟩⟩]).width.val = Extent.limit ∧
    (ofBoxes [⟨4294967290, 2, 10, 3, .black, ⟨.numeric, ['1']⟩⟩]).height.val = 5 ∧
    (ofBoxes [⟨7, 9, 0, 0, .black, ⟨.symbol, ['~']⟩⟩,
      ⟨4294967290, 2, 10, 3, .black, ⟨.numeric, ['1']⟩⟩]).height.val = 9 := by
  rcases size_tight [⟨4294967290, 2, 10, 3, .black, ⟨.numeric, ['1']⟩⟩,
    ⟨7, 9, 0, 0, .black, ⟨.symbol, ['~']⟩⟩] with ⟨hpushed, hperm⟩
  have hfirst := (hpushed [⟨4294967290, 2, 10, 3, .black, ⟨.numeric, ['1']⟩⟩] ⟨_, rfl⟩).1
  have hboth := (hpushed _ (List.prefix_refl _)).1
  have hswapped := (hperm _ (List.Perm.swap _ _ [])).2
  refine ⟨hfirst.width, hfirst.height, ?_⟩
  rw [hswapped]
  exact hboth.height

end Layout

end SourceTexture
