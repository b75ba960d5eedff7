import SourceTexture.Picture.Layout
import Mathlib.Data.List.MinMax
import Mathlib.Order.Nat

/-!
# Placement

Where the boxes of a list of fragments lie, read off the list.

Placing carries a cursor through the fragments and stops it at the limit again
and again, once for every measure that is added. What comes of it is simpler. A
fragment has a spot in its text: a number of line breaks before it, and in its
row a number of fragments and of characters. Its box has the place that these
numbers give, computed without a limit and clamped in the end, for clamping
goes through sums and products.

A layout is then no more than the boxes at the spots, with their bounds
(`Layout.ofFragments_eq`), and what is to be shown of a layout can be shown of
the spots. The bounds are kept up to date box by box, and what comes of that is
a maximum over all boxes, zero where there are none.

## Main definitions

* `largest`: The largest of some numbers.
* `Spot`: Where a fragment stands in a text.
* `Fragment.spots`: The spots of a list of fragments.
* `Spot.Precedes`: A spot lies before another.
* `Spot.box`: The box at a spot.

## Theorems

* `Layout.toList_boxes_ofBoxes`: A layout keeps its boxes in order.
* `Layout.width_ofBoxes`, `Layout.height_ofBoxes`: Its size is the furthest edge.
* `Fragment.pairwise_precedes_spots`: Spots lie one before the other.
* `Cursor.foldl_place`: Placing gives the boxes at the spots.
* `Layout.ofFragments_eq`: So does the layout of fragments.
-/

namespace SourceTexture

/-- The largest of some numbers, and zero where there are none. -/
def largest (ns : List Nat) : Nat :=
  ns.foldr max 0

theorem largest_cons (n : Nat) (ns : List Nat) : largest (n :: ns) = max n (largest ns) := rfl

theorem le_largest {ns : List Nat} {n : Nat} (h : n ∈ ns) : n ≤ largest ns :=
  List.le_max_of_le h (Nat.le_refl n)

theorem largest_le {ns : List Nat} {m : Nat} (h : ∀ n ∈ ns, n ≤ m) : largest ns ≤ m :=
  List.max_le_of_forall_le ns m h

/-- What lies below the largest number lies below one of them. -/
theorem exists_of_lt_largest {ns : List Nat} {m : Nat} (h : m < largest ns) :
    ∃ n ∈ ns, m < n := by
  by_contra hnone
  refine absurd (largest_le fun n hn => ?_) (Nat.not_le.mpr h)
  exact Nat.not_lt.mp fun hlt => hnone ⟨n, hn, hlt⟩

namespace Layout

/-- Boxes that are pushed come behind those that are there already. -/
theorem toList_boxes_foldl_push (l : Layout) (boxes : List Box) :
    (boxes.foldl push l).boxes.toList = l.boxes.toList ++ boxes := by
  induction boxes generalizing l with
  | nil => exact (List.append_nil _).symm
  | cons b boxes ih =>
      rw [List.foldl_cons, ih, push, Array.toList_push, List.append_assoc, List.singleton_append]

/-- A layout keeps its boxes in the order in which they were added. -/
theorem toList_boxes_ofBoxes (boxes : List Box) : (ofBoxes boxes).boxes.toList = boxes :=
  toList_boxes_foldl_push {} boxes

/-- A measure that every box pushes out to one of its edges ends at the furthest
    of these edges, or where it was. -/
theorem val_foldl_push (measure : Layout → Extent) (edge : Box → Extent)
    (h : ∀ l b, (measure (push l b)).val = max (measure l).val (edge b).val) (l : Layout)
    (boxes : List Box) :
    (measure (boxes.foldl push l)).val
      = max (measure l).val (largest (boxes.map fun b => (edge b).val)) := by
  induction boxes generalizing l with
  | nil => exact (Nat.max_eq_left (Nat.zero_le _)).symm
  | cons b boxes ih =>
      have hpush := h l b
      rw [List.foldl_cons, ih, List.map_cons, largest_cons]
      omega

/-- The width of a layout is the furthest right edge of a box. -/
theorem width_ofBoxes (boxes : List Box) :
    (ofBoxes boxes).width.val = largest (boxes.map fun b => b.right.val) := by
  have hwidth := val_foldl_push width Box.right (fun l b => Extent.val_max l.width b.right)
    {} boxes
  rw [ofBoxes, hwidth]
  exact Nat.max_eq_right (Nat.zero_le _)

/-- The height is the furthest lower edge of one. -/
theorem height_ofBoxes (boxes : List Box) :
    (ofBoxes boxes).height.val = largest (boxes.map fun b => b.bottom.val) := by
  have hheight := val_foldl_push height Box.bottom
    (fun l b => Extent.val_max l.height b.bottom) {} boxes
  rw [ofBoxes, hheight]
  exact Nat.max_eq_right (Nat.zero_le _)

end Layout

/-- Where a fragment stands in a text. -/
structure Spot where
  /-- The line breaks before it. -/
  row : Nat
  /-- The fragments before it in its row. -/
  before : Nat
  /-- The characters before it in its row. -/
  column : Nat
  /-- The fragment itself. -/
  fragment : Fragment

/-- The spots of fragments of which the first has the given row, fragments and
    characters before it. Line breaks have none. -/
def Fragment.spots (row before column : Nat) : List Fragment → List Spot
  | [] => []
  | f :: fs =>
    if f.kind = .lineFeed then spots (row + 1) 0 0 fs
    else ⟨row, before, column, f⟩ :: spots row (before + 1) (column + f.content.length) fs

namespace Fragment

theorem spots_lineFeed {f : Fragment} (h : f.kind = .lineFeed) (row before column : Nat)
    (fs : List Fragment) : spots row before column (f :: fs) = spots (row + 1) 0 0 fs := by
  rw [spots, if_pos h]

theorem spots_of_ne {f : Fragment} (h : f.kind ≠ .lineFeed) (row before column : Nat)
    (fs : List Fragment) :
    spots row before column (f :: fs)
      = ⟨row, before, column, f⟩ :: spots row (before + 1) (column + f.content.length) fs := by
  rw [spots, if_neg h]

/-- Every fragment has a spot, unless it is a line break. -/
theorem length_spots (row before column : Nat) (fs : List Fragment) :
    (spots row before column fs).length = fs.countP (·.kind ≠ .lineFeed) := by
  induction fs generalizing row before column with
  | nil => rfl
  | cons f fs ih =>
      by_cases h : f.kind = .lineFeed
      · rw [spots_lineFeed h, ih, List.countP_cons_of_neg (by rw [h]; decide)]
      · rw [spots_of_ne h, List.length_cons, ih, List.countP_cons_of_pos]
        exact decide_eq_true h

end Fragment

/-- Whether a spot lies before another: in an earlier row, or in the same row with
    its whole text to the left of the other. -/
def Spot.Precedes (s t : Spot) : Prop :=
  s.row < t.row ∨
    s.row = t.row ∧ s.before ≤ t.before ∧ s.column + s.fragment.content.length ≤ t.column

namespace Fragment

/-- Spots lie where their fragments are placed, or behind. -/
theorem le_of_mem_spots (fs : List Fragment) (row before column : Nat) :
    ∀ s ∈ spots row before column fs,
      row < s.row ∨ row = s.row ∧ before ≤ s.before ∧ column ≤ s.column := by
  induction fs generalizing row before column with
  | nil => exact fun s hs => absurd hs List.not_mem_nil
  | cons f fs ih =>
      intro s hs
      by_cases hkind : f.kind = .lineFeed
      · -- Behind a line break everything is in a later row.
        rw [spots_lineFeed hkind] at hs
        have hbehind := ih (row + 1) 0 0 s hs
        omega
      · rw [spots_of_ne hkind] at hs
        rcases List.mem_cons.mp hs with hs | hs
        · rw [hs]
          exact Or.inr ⟨rfl, Nat.le_refl before, Nat.le_refl column⟩
        · have hbehind := ih row (before + 1) _ s hs
          omega

/-- A text is written row by row and from left to right. -/
theorem pairwise_precedes_spots (fs : List Fragment) (row before column : Nat) :
    (spots row before column fs).Pairwise Spot.Precedes := by
  induction fs generalizing row before column with
  | nil => exact List.Pairwise.nil
  | cons f fs ih =>
      by_cases hkind : f.kind = .lineFeed
      · rw [spots_lineFeed hkind]
        exact ih (row + 1) 0 0
      · rw [spots_of_ne hkind]
        -- All that follows in the row begins behind the text of the first fragment.
        refine List.Pairwise.cons (fun t ht => ?_) (ih row (before + 1) _)
        have hbehind := le_of_mem_spots fs row (before + 1) _ t ht
        simp only [Spot.Precedes]
        omega

end Fragment

/-- The box of a fragment at its spot. Every measure is computed exactly and
    clamped once. -/
def Spot.box (g : Geometry) (p : Palette) (s : Spot) : Box where
  x := Extent.clamp (s.column * g.charWidth.val + s.before * g.boxGap.val)
  y := Extent.clamp (s.row * (g.lineHeight.val + g.boxGap.val))
  width := Extent.clamp (s.fragment.content.length * g.charWidth.val)
  height := g.lineHeight
  color := p.color s.fragment.kind
  fragment := s.fragment

namespace Geometry

variable (g : Geometry)

theorem widthOf_eq (f : Fragment) :
    g.widthOf f = Extent.clamp (f.content.length * g.charWidth.val) := by
  rw [← Extent.clamp_mul_clamp, Extent.clamp_val, widthOf]

theorem rowTop_clamp (row : Nat) :
    g.rowTop (Extent.clamp row) = Extent.clamp (row * (g.lineHeight.val + g.boxGap.val)) := by
  rw [← Extent.clamp_mul_clamp, ← Extent.clamp_add_clamp, Extent.clamp_val, Extent.clamp_val,
    rowTop]

end Geometry

namespace Cursor

variable (g : Geometry) (p : Palette)

/-- Placing fragments from their first spot on adds the boxes of all their spots. -/
theorem foldl_place (fs : List Fragment) (row before column : Nat) (l : Layout) :
    (fs.foldl (place g p)
        ⟨Extent.clamp (column * g.charWidth.val + before * g.boxGap.val), Extent.clamp row,
          l⟩).layout
      = ((Fragment.spots row before column fs).map (Spot.box g p)).foldl Layout.push l := by
  -- The cursor stands at the clamped place of the next spot before every fragment.
  induction fs generalizing row before column l with
  | nil => rfl
  | cons f fs ih =>
      by_cases h : f.kind = .lineFeed
      · have hstart : (0 : Extent) = Extent.clamp (0 * g.charWidth.val + 0 * g.boxGap.val) := by
          rw [Nat.zero_mul, Nat.zero_mul]
          rfl
        have hrow : Extent.clamp row + 1 = Extent.clamp (row + 1) := Extent.clamp_add_clamp row 1
        rw [Fragment.spots_lineFeed h, ← ih, List.foldl_cons, place, if_pos h, ← hstart, ← hrow]
      · have hnext : Extent.clamp (column * g.charWidth.val + before * g.boxGap.val)
              + g.widthOf f + g.boxGap
            = Extent.clamp ((column + f.content.length) * g.charWidth.val
              + (before + 1) * g.boxGap.val) := by
          rw [g.widthOf_eq, Extent.clamp_add_clamp, ← Extent.clamp_val g.boxGap,
            Extent.clamp_add_clamp, Extent.clamp_val, Nat.add_mul, Nat.succ_mul]
          congr 1
          omega
        have hbox : boxFor g p
              ⟨Extent.clamp (column * g.charWidth.val + before * g.boxGap.val),
                Extent.clamp row, l⟩ f
            = Spot.box g p ⟨row, before, column, f⟩ := by
          rw [boxFor, Spot.box, g.widthOf_eq, g.rowTop_clamp]
        rw [Fragment.spots_of_ne h, List.map_cons, List.foldl_cons, List.foldl_cons, ← ih, place,
          if_neg h]
        simp only [hnext, hbox]

end Cursor

theorem Layout.ofFragments_eq (g : Geometry) (p : Palette) (fs : List Fragment) :
    ofFragments g p fs = ofBoxes ((Fragment.spots 0 0 0 fs).map (Spot.box g p)) := by
  have hplace := Cursor.foldl_place g p fs 0 0 0 {}
  rw [Nat.zero_mul, Nat.zero_mul] at hplace
  exact hplace

theorem Layout.width_ofFragments (g : Geometry) (p : Palette) (fs : List Fragment) :
    (ofFragments g p fs).width.val
      = largest ((Fragment.spots 0 0 0 fs).map fun s => (s.box g p).right.val) := by
  rw [ofFragments_eq, width_ofBoxes, List.map_map]
  rfl

theorem Layout.height_ofFragments (g : Geometry) (p : Palette) (fs : List Fragment) :
    (ofFragments g p fs).height.val
      = largest ((Fragment.spots 0 0 0 fs).map fun s => (s.box g p).bottom.val) := by
  rw [ofFragments_eq, height_ofBoxes, List.map_map]
  rfl

end SourceTexture
