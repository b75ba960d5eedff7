import SourceTexture.Proofs.Picture.Stacking
import Mathlib.Data.List.DropRight

/-!
# Exact places

What the fragments in front of a fragment say about its box.

A list of fragments is laid out with one cursor, and every measure on the way is
stopped at the limit. A reader who wants to know where a single box lies does not
follow the cursor. He counts: the line breaks in front of the fragment, and
behind the last of them the fragments and their characters. These numbers and the
measures of the geometry give all edges of the box in a picture without a limit,
and the box itself is what is left of that picture once the limit is imposed on
it. Nothing is lost by having imposed it many times on the way.

The numbers are those of the spot of the fragment. A spot is reached by a
recursion from the left, and the last row is found from the right, so the list in
front of the fragment is built up from its end, one fragment at a time.

## Main definitions

* `Fragment.lastRow`: The fragments behind the last line break.
* `Fragment.characters`: The number of characters in fragments.
* `Box.ClampedFrom`: The edges of a box are the exact ones, clamped.

## Theorems

* `Fragment.spots_append`: The spots of fragments that follow others.
* `Fragment.map_fragment_spots`: Every fragment but line breaks has its spot, in
  order.
* `Fragment.mem_spots_iff`: What stands in front of a fragment tells its spot.
* `Spot.clampedFrom_box`: The box at a spot is clamped once.
* `Layout.boxes_clamped`: A layout is the clamp of the exact one.
-/

namespace SourceTexture

namespace Fragment

/-- The fragments of the last row: those behind the last line break, and all of
    them where there is none. -/
def lastRow (fs : List Fragment) : List Fragment :=
  fs.rtakeWhile (·.kind ≠ .lineFeed)

/-- The number of characters in fragments. -/
def characters (fs : List Fragment) : Nat :=
  (fs.flatMap (·.content)).length

theorem lastRow_concat_lineFeed {f : Fragment} (h : f.kind = .lineFeed) (fs : List Fragment) :
    lastRow (fs ++ [f]) = [] :=
  List.rtakeWhile_concat_neg _ _ _ (by rw [h]; decide)

theorem lastRow_concat {f : Fragment} (h : f.kind ≠ .lineFeed) (fs : List Fragment) :
    lastRow (fs ++ [f]) = lastRow fs ++ [f] :=
  List.rtakeWhile_concat_pos _ _ _ (decide_eq_true h)

theorem characters_concat (fs : List Fragment) (f : Fragment) :
    characters (fs ++ [f]) = characters fs + f.content.length := by
  rw [characters, List.flatMap_append, List.length_append, List.flatMap_singleton, characters]

theorem breaks_concat_lineFeed {f : Fragment} (h : f.kind = .lineFeed) (fs : List Fragment) :
    breaks (fs ++ [f]) = breaks fs + 1 := by
  rw [breaks, List.countP_append, List.countP_singleton, if_pos (decide_eq_true h), breaks]

theorem breaks_concat {f : Fragment} (h : f.kind ≠ .lineFeed) (fs : List Fragment) :
    breaks (fs ++ [f]) = breaks fs := by
  rw [breaks, List.countP_append, List.countP_singleton, if_neg (by rwa [decide_eq_true_eq]),
    Nat.add_zero, breaks]

/-- Fragments that follow others are placed in the last row of these, behind all
    that stands there. -/
theorem spots_append (front back : List Fragment) :
    spots 0 0 0 (front ++ back) = spots 0 0 0 front
      ++ spots (breaks front) (lastRow front).length (characters (lastRow front)) back := by
  -- The last fragment in front is the first of those behind, and takes one step there.
  induction front using List.reverseRecOn generalizing back with
  | nil => rfl
  | append_singleton front f ih =>
      rw [List.append_assoc, List.singleton_append, ih (f :: back), ih [f], List.append_assoc]
      congr 1
      by_cases h : f.kind = .lineFeed
      · rw [spots_lineFeed h, spots_lineFeed h, breaks_concat_lineFeed h,
          lastRow_concat_lineFeed h]
        rfl
      · rw [spots_of_ne h, spots_of_ne h, breaks_concat h, lastRow_concat h, characters_concat,
          List.length_append, List.length_singleton]
        rfl

/-- Every fragment has its spot, in order, apart from line breaks. -/
theorem map_fragment_spots (row before column : Nat) (fs : List Fragment) :
    (spots row before column fs).map Spot.fragment = fs.filter (·.kind ≠ .lineFeed) := by
  induction fs generalizing row before column with
  | nil => rfl
  | cons f fs ih =>
      by_cases h : f.kind = .lineFeed
      · rw [spots_lineFeed h, ih, List.filter_cons_of_neg (by rw [h]; decide)]
      · rw [spots_of_ne h, List.map_cons, ih,
          List.filter_cons_of_pos (by rwa [decide_eq_true_eq])]

/-- The spot of a fragment, told by what stands in front of it. -/
def spotBehind (front : List Fragment) (f : Fragment) : Spot :=
  ⟨breaks front, (lastRow front).length, characters (lastRow front), f⟩

/-- A fragment takes its spot behind the spots of the fragments in front. -/
theorem spots_append_cons_of_ne (front : List Fragment) {f : Fragment} (h : f.kind ≠ .lineFeed)
    (back : List Fragment) :
    ∃ rest, spots 0 0 0 (front ++ f :: back)
      = spots 0 0 0 front ++ spotBehind front f :: rest := by
  rw [spots_append, spots_of_ne h]
  exact ⟨_, rfl⟩

/-- The spots of a list are those of its fragments, line breaks apart, each told by
    what stands in front. -/
theorem mem_spots_iff {s : Spot} (fs : List Fragment) :
    s ∈ spots 0 0 0 fs ↔
      ∃ front f back, fs = front ++ f :: back ∧ f.kind ≠ .lineFeed ∧ s = spotBehind front f := by
  constructor
  · induction fs using List.reverseRecOn with
    | nil => exact fun hs => absurd hs List.not_mem_nil
    | append_singleton fs f ih =>
        intro hs
        rw [spots_append] at hs
        rcases List.mem_append.mp hs with hs | hs
        · rcases ih hs with ⟨front, e, back, hfs, he, hspot⟩
          refine ⟨front, e, back ++ [f], ?_, he, hspot⟩
          rw [hfs, List.append_assoc, List.cons_append]
        · -- The last fragment has all others in front of it.
          by_cases hf : f.kind = .lineFeed
          · rw [spots_lineFeed hf] at hs
            exact absurd hs List.not_mem_nil
          · rw [spots_of_ne hf] at hs
            exact ⟨fs, f, [], rfl, hf, List.mem_singleton.mp hs⟩
  · rintro ⟨front, f, back, rfl, hf, rfl⟩
    rcases spots_append_cons_of_ne front hf back with ⟨rest, hspots⟩
    rw [hspots]
    exact List.mem_append_right _ List.mem_cons_self

end Fragment

/-- Whether a box is the one of a fragment that has others in front of it. All edges
    are computed without a limit from what stands in front, and only then clamped. -/
structure Box.ClampedFrom (g : Geometry) (p : Palette) (front : List Fragment) (f : Fragment)
    (b : Box) : Prop where
  /-- It stands for the fragment. -/
  fragment : b.fragment = f
  /-- It has the colour of the fragment. -/
  color : b.color = p.color f.kind
  /-- The characters and gaps in front of it in its row are to its left. -/
  x : b.x.val = min Extent.limit (Fragment.characters (Fragment.lastRow front) * g.charWidth.val
    + (Fragment.lastRow front).length * g.boxGap.val)
  /-- The rows in front of it are above it. -/
  y : b.y.val = min Extent.limit
    (Fragment.breaks front * (g.lineHeight.val + g.boxGap.val))
  /-- It is as wide as the characters of the fragment. -/
  width : b.width.val = min Extent.limit (f.content.length * g.charWidth.val)
  /-- It is as high as a line. -/
  height : b.height = g.lineHeight
  /-- Its own characters end at its right edge. -/
  right : b.right.val = min Extent.limit
    ((Fragment.characters (Fragment.lastRow front) + f.content.length) * g.charWidth.val
      + (Fragment.lastRow front).length * g.boxGap.val)
  /-- Its line ends at its lower edge. -/
  bottom : b.bottom.val = min Extent.limit
    (Fragment.breaks front * (g.lineHeight.val + g.boxGap.val) + g.lineHeight.val)

/-- The edges of the box at a spot are clamped once, also those that are computed
    from two clamped measures. -/
theorem Spot.clampedFrom_box (g : Geometry) (p : Palette) (front : List Fragment)
    (f : Fragment) : ((Fragment.spotBehind front f).box g p).ClampedFrom g p front f where
  fragment := rfl
  color := rfl
  x := Nat.min_comm _ _
  y := Nat.min_comm _ _
  width := Nat.min_comm _ _
  height := rfl
  right := by
    rw [Box.right, box, Extent.clamp_add_clamp, Extent.val_clamp, Nat.min_comm]
    congr 1
    -- Its own width is added behind the gaps, and belongs to the characters.
    simp only [Fragment.spotBehind, Nat.add_mul]
    omega
  bottom := by
    have hheight : Extent.clamp g.lineHeight.val = g.lineHeight := Extent.clamp_val g.lineHeight
    rw [Box.bottom, box, ← hheight, Extent.clamp_add_clamp, hheight, Extent.val_clamp,
      Nat.min_comm]
    rfl

namespace Layout

/-- A layout is the clamp of the exact one. Its boxes are those of the fragments
    that are no line breaks, in order. Each of them has the place and the size that
    the fragments in front of it give in a picture without a limit, and is clamped
    in the end. The size of the layout is the furthest edge of a box in either
    direction, and zero where there is no box. -/
theorem boxes_clamped (g : Geometry) (p : Palette) (fs : List Fragment) :
    (ofFragments g p fs).boxes.toList.map Box.fragment = fs.filter (·.kind ≠ .lineFeed) ∧
    (∀ front f back, fs = front ++ f :: back → f.kind ≠ .lineFeed →
      ∃ b, (ofFragments g p fs).boxes[front.countP (·.kind ≠ .lineFeed)]? = some b ∧
        b.ClampedFrom g p front f) ∧
    (ofFragments g p fs).width.val
      = largest ((ofFragments g p fs).boxes.toList.map fun b => b.right.val) ∧
    (ofFragments g p fs).height.val
      = largest ((ofFragments g p fs).boxes.toList.map fun b => b.bottom.val) := by
  rw [ofFragments_eq, toList_boxes_ofBoxes]
  refine ⟨?_, ?_, width_ofBoxes _, height_ofBoxes _⟩
  · rw [List.map_map, ← Fragment.map_fragment_spots 0 0 0 fs]
    rfl
  · intro front f back hfs hf
    rcases Fragment.spots_append_cons_of_ne front hf back with ⟨rest, hspots⟩
    refine ⟨_, ?_, Spot.clampedFrom_box g p front f⟩
    -- The boxes in front are as many as the fragments that are no line breaks.
    have hcount := Fragment.length_spots 0 0 0 front
    rw [← Array.getElem?_toList, toList_boxes_ofBoxes, hfs, hspots, List.map_append,
      List.map_cons, ← hcount, ← List.length_map (Spot.box g p),
      List.getElem?_append_right (Nat.le_refl _), Nat.sub_self, List.getElem?_cons_zero]

/-- Where characters are as wide as the limit, a blank behind a word of two letters
    in the second row lies at the limit, in a row that does not. -/
theorem boxes_clamped_at_limit :
    ∃ b, (ofFragments ⟨Extent.clamp Extent.limit, 3, 1⟩ .standard
        [⟨.identifier, ['x']⟩, .lineBreak, ⟨.identifier, ['a', 'b']⟩, ⟨.space, [' ']⟩]).boxes[2]?
          = some b ∧
      b.x.val = Extent.limit ∧ b.y.val = 4 ∧ b.right.val = Extent.limit ∧ b.bottom.val = 7 := by
  rcases (boxes_clamped ⟨Extent.clamp Extent.limit, 3, 1⟩ .standard
      [⟨.identifier, ['x']⟩, .lineBreak, ⟨.identifier, ['a', 'b']⟩, ⟨.space, [' ']⟩]).2.1
    [⟨.identifier, ['x']⟩, .lineBreak, ⟨.identifier, ['a', 'b']⟩] ⟨.space, [' ']⟩ [] rfl
    (by decide) with ⟨b, hb, hclamped⟩
  exact ⟨b, hb, hclamped.x, hclamped.y, hclamped.right, hclamped.bottom⟩

end Layout

end SourceTexture
