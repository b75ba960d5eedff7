import SourceTexture.Proofs.Picture.SamePicture
import Mathlib.Data.List.Pairwise

/-!
# Boxes apart

No two boxes of a layout have a pixel in common, and so the order in which they
are painted does not show.

Boxes are squeezed against the limit, many of them into no extent at all, and a
line height or a character width may be zero to begin with. None of that brings
two boxes on top of each other. Of two spots one lies before the other, in an
earlier row or further to the left, and with the measures computed exactly its
box ends before the other one begins. Clamping keeps that order: it moves edges
but never one past another. What may happen is that edges fall together, and then
a box between them is empty.

Painting two boxes that have no pixel in common comes to the same in either
order. Any other order of a list is reached by exchanging boxes, two at a time,
so all orders give the same picture. The size does not depend on the order
anyway, and neither does whether all boxes can be painted.

## Main definitions

* `Box.Holds`: A pixel lies in a box.
* `Box.Apart`: Two boxes have no pixel in common.

## Theorems

* `Spot.apart_of_precedes`: Boxes at spots that lie one before the other.
* `Box.holds_of_covers`: A box is painted inside its edges.
* `Image.fill_comm`: Areas apart may be filled in either order.
* `Box.SamePicture.of_perm`: Boxes apart may be painted in any order.
* `Layout.boxes_apart`: The boxes of a layout are apart, and may be pushed in
  any order.
-/

namespace SourceTexture

namespace Box

/-- Whether the pixel in column `x` of row `y` lies in the box, of which the right
    and the lower edge are no part. -/
def Holds (b : Box) (x y : Nat) : Prop :=
  (b.x.val ≤ x ∧ x < b.right.val) ∧ b.y.val ≤ y ∧ y < b.bottom.val

/-- Two boxes that have no pixel in common. -/
def Apart (a b : Box) : Prop :=
  ∀ x y, a.Holds x y → ¬ b.Holds x y

instance : Std.Symm Apart :=
  ⟨fun _ _ h x y hb ha => h x y ha hb⟩

end Box

/-! ### Where boxes lie -/

/-- Boxes at spots that lie one before the other are apart. The exact edges are in
    order, and clamping does not change their order. -/
theorem Spot.apart_of_precedes (g : Geometry) (p : Palette) {s t : Spot} (h : s.Precedes t) :
    (s.box g p).Apart (t.box g p) := by
  intro x y hs ht
  simp only [Box.Holds, Box.right, Box.bottom, Spot.box, Extent.val_add, Extent.val_clamp]
    at hs ht
  rcases h with hrow | ⟨-, hbefore, hcolumn⟩
  · -- The upper row ends, with its gap, before the lower one begins.
    have hedge : (s.row + 1) * (g.lineHeight.val + g.boxGap.val)
        ≤ t.row * (g.lineHeight.val + g.boxGap.val) := Nat.mul_le_mul_right _ hrow
    rw [Nat.add_mul] at hedge
    omega
  · -- In one row the characters and the gaps of the left box are passed first.
    have hgaps : s.before * g.boxGap.val ≤ t.before * g.boxGap.val :=
      Nat.mul_le_mul_right _ hbefore
    have hchars : (s.column + s.fragment.content.length) * g.charWidth.val
        ≤ t.column * g.charWidth.val := Nat.mul_le_mul_right _ hcolumn
    rw [Nat.add_mul] at hchars
    omega

theorem Layout.pairwise_apart (g : Geometry) (p : Palette) (fs : List Fragment) :
    (ofFragments g p fs).boxes.toList.Pairwise Box.Apart := by
  rw [ofFragments_eq, toList_boxes_ofBoxes, List.pairwise_map]
  exact (Fragment.pairwise_precedes_spots fs 0 0 0).imp (Spot.apart_of_precedes g p)

/-! ### Painting in another order -/

/-- A box is painted inside its edges. -/
theorem Box.holds_of_covers {b : Box} {x y : Nat} (h : b.painted.Covers x y) : b.Holds x y := by
  rcases b.painted_within with ⟨hleft, hright, htop, hbottom⟩
  unfold Area.Covers at h
  unfold Holds
  omega

/-- Stretches that have no position in common may be changed in either order. -/
theorem modifyBetween_comm {α : Type} (f f' : α → α) {first last first' last' : Nat}
    (a : Array α) (h : ∀ j, first ≤ j ∧ j < last → ¬ (first' ≤ j ∧ j < last')) :
    modifyBetween f' first' last' (modifyBetween f first last a)
      = modifyBetween f first last (modifyBetween f' first' last' a) := by
  apply Array.ext_getElem?
  intro j
  simp only [getElem?_modifyBetween]
  -- A position in the first stretch is outside the second, where nothing happens.
  by_cases hj : first ≤ j ∧ j < last
  · simp only [if_pos hj, if_neg (h j hj)]
  · simp only [if_neg hj]

/-- Areas that have no pixel in common may be filled in either order. -/
theorem Image.fill_comm (image : Image) {a b : Area} (c d : Color)
    (h : ∀ x y, a.Covers x y → ¬ b.Covers x y) :
    (image.fill a c).fill b d = (image.fill b d).fill a c := by
  refine Image.ext rfl rfl ?_
  simp only [fill]
  by_cases hrows : ∀ y, a.y.val ≤ y ∧ y < a.bottom.val → ¬ (b.y.val ≤ y ∧ y < b.bottom.val)
  · exact modifyBetween_comm _ _ image.rows hrows
  · -- In a row that both areas have, they have no column in common.
    push Not at hrows
    rcases hrows with ⟨y₀, ha₀, hb₀⟩
    have hcolumns : ∀ x, a.x.val ≤ x ∧ x < a.right.val → ¬ (b.x.val ≤ x ∧ x < b.right.val) :=
      fun x ha hb => h x y₀ ⟨ha, ha₀⟩ ⟨hb, hb₀⟩
    apply Array.ext_getElem?
    intro y
    simp only [getElem?_modifyBetween]
    by_cases ha : a.y.val ≤ y ∧ y < a.bottom.val
    · by_cases hb : b.y.val ≤ y ∧ y < b.bottom.val
      · simp only [if_pos ha, if_pos hb, Option.map_map]
        congr 1
        funext row
        exact modifyBetween_comm _ _ row hcolumns
      · simp only [if_pos ha, if_neg hb]
    · simp only [if_neg ha]

namespace Box

theorem paint_comm {a b : Box} (h : a.Apart b) (image : Image) :
    paint (paint image a) b = paint (paint image b) a := by
  apply Image.fill_comm
  intro x y hcovers hcovers'
  exact h x y (holds_of_covers hcovers) (holds_of_covers hcovers')

/-- Boxes that are apart give the same picture in any order. -/
theorem SamePicture.of_perm {bs cs : List Box} (h : bs.Perm cs) (hapart : cs.Pairwise Apart) :
    SamePicture bs cs := by
  refine ⟨?_, ?_, ?_, fun image => ?_⟩
  · exact largest_eq_of_mem_iff fun n => (h.map _).mem_iff
  · exact largest_eq_of_mem_iff fun n => (h.map _).mem_iff
  · simp only [h.mem_iff]
  · refine h.foldl_eq' (fun a ha b hb canvas => ?_) image
    -- Equal boxes may be exchanged as well, whether or not they are empty.
    by_cases hab : a = b
    · rw [hab]
    · exact paint_comm (hapart.forall (h.mem_iff.mp ha) (h.mem_iff.mp hb) hab) canvas

end Box

namespace Layout

/-- The boxes of a layout are apart: no two of them have a pixel in common, at
    whatever limit they have been stopped. So they may be pushed in any order.
    The picture is the same, and there is one as long as no box of delimiters
    overflows. -/
theorem boxes_apart (g : Geometry) (p : Palette) (fs : List Fragment) :
    (ofFragments g p fs).boxes.toList.Pairwise Box.Apart ∧
    ∀ (boxes : List Box) (q : Palette), boxes.Perm (ofFragments g p fs).boxes.toList →
      (ofBoxes boxes).render q = (ofFragments g p fs).render q ∧
      ((∀ b ∈ boxes, b.fragment.kind = .delimiter → b.paintArea ≠ .error .overflow) →
        ∃ image, (ofBoxes boxes).render q = .ok image) := by
  have hapart := pairwise_apart g p fs
  refine ⟨hapart, fun boxes q hperm => ⟨?_, fun hpaint => ?_⟩⟩
  · have hsame := (Box.SamePicture.of_perm hperm hapart).render_ofBoxes q
    rw [hsame, ofFragments_eq, toList_boxes_ofBoxes]
  · -- Only a box of delimiters can fail to be addressable, and then it overflows.
    refine ⟨_, render_eq_ok _ q fun b hb => ?_⟩
    rw [toList_boxes_ofBoxes] at hb
    by_contra hpast
    exact hpaint b hb (Classical.not_imp.mp hpast).1 (Box.paintArea_eq_overflow hpast)

/-- A delimiter that begins at the limit because of a character as wide as that,
    pushed before the word to its left. -/
theorem boxes_apart_at_limit :
    ∃ image,
      (ofBoxes (ofFragments ⟨Extent.clamp Extent.limit, 3, 0⟩ .standard
        [⟨.identifier, ['a']⟩, ⟨.delimiter, [';']⟩]).boxes.toList.reverse).render .standard
        = .ok image ∧
      (ofFragments ⟨Extent.clamp Extent.limit, 3, 0⟩ .standard
        [⟨.identifier, ['a']⟩, ⟨.delimiter, [';']⟩]).render .standard = .ok image := by
  obtain ⟨hsame, hpicture⟩ := (boxes_apart ⟨Extent.clamp Extent.limit, 3, 0⟩ .standard
    [⟨.identifier, ['a']⟩, ⟨.delimiter, [';']⟩]).2 _ .standard (List.reverse_perm _)
  obtain ⟨image, himage⟩ := hpicture (by decide)
  exact ⟨image, himage, hsame ▸ himage⟩

end Layout

end SourceTexture
