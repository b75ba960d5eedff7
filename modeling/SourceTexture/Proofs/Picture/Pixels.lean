import SourceTexture.Proofs.Picture.Cells
import SourceTexture.Proofs.Picture.Painting

/-!
# From text to pixels

Which character of a text a pixel of its picture shows.

Without gaps a picture is squared paper: every character has a cell, as wide as a
character and as high as a line, and a pixel lies in the cell that dividing its
place by those measures gives. The box at a spot covers the cells of that spot,
as long as it stays clear of the limit, and the paint of the box covers them too,
or their lower halves.

So what a pixel shows is decided by the one spot that has its cell, if any has.
That is no longer a matter of pictures. Which spot has a cell is known from the
lines of the text, and the size of the picture is known from them as well,
because the furthest edges belong to the last cells.

The limit enters once. Where all cells of the text lie within it, so do all
spots, and nothing is clamped.

## Main definitions

* `Spot.Fits`: The box at a spot lies within the limit.
* `Image.Depicts`: A picture shows a text, character by character.

## Theorems

* `Spot.covers_painted_box`: The paint of a box covers cells.
* `Spot.shade_of_holds`, `Spot.shade_of_not_holds`: What a pixel shows is decided
  by its cell.
* `Layout.width_eq_longest`, `Layout.height_eq_last`: The size of a layout, from
  the lines.
* `Settings.depicts_text`: The picture of a text depicts it.
-/

namespace SourceTexture

/-- Whether the box at a spot lies within the limit where there are no gaps. -/
structure Spot.Fits (g : Geometry) (s : Spot) : Prop where
  /-- Its right edge does. -/
  columns : (s.column + s.fragment.content.length) * g.charWidth.val ≤ Extent.limit
  /-- Its lower edge does. -/
  rows : (s.row + 1) * g.lineHeight.val ≤ Extent.limit

namespace Spot

variable {g : Geometry} (p : Palette) {s : Spot}

/-- Without gaps the left edge is counted in characters. -/
theorem x_box (hgap : g.boxGap = 0) (hfits : s.Fits g) :
    (s.box g p).x.val = s.column * g.charWidth.val := by
  have hcolumns := hfits.columns
  rw [Nat.add_mul] at hcolumns
  rw [box, hgap, Extent.val_zero, Nat.mul_zero, Nat.add_zero]
  exact Extent.val_clamp_of_le (by omega)

/-- So is the right edge, with the characters of the fragment itself. -/
theorem right_box (hgap : g.boxGap = 0) (hfits : s.Fits g) :
    (s.box g p).right.val = (s.column + s.fragment.content.length) * g.charWidth.val := by
  have hcolumns := hfits.columns
  rw [Box.right, box, hgap, Extent.clamp_add_clamp, Extent.val_zero, Nat.mul_zero, Nat.add_zero,
    ← Nat.add_mul]
  exact Extent.val_clamp_of_le hcolumns

/-- The upper edge is counted in lines. -/
theorem y_box (hgap : g.boxGap = 0) (hfits : s.Fits g) :
    (s.box g p).y.val = s.row * g.lineHeight.val := by
  have hrows := hfits.rows
  rw [Nat.add_mul] at hrows
  rw [box, hgap, Extent.val_zero, Nat.add_zero]
  exact Extent.val_clamp_of_le (by omega)

/-- The lower edge is one line further down. -/
theorem bottom_box (hgap : g.boxGap = 0) (hfits : s.Fits g) :
    (s.box g p).bottom.val = (s.row + 1) * g.lineHeight.val := by
  have hy := y_box p hgap hfits
  have hrows := hfits.rows
  have hheight : (s.box g p).height = g.lineHeight := rfl
  rw [Box.bottom, Extent.val_add, hy, hheight]
  rw [Nat.add_mul] at hrows ⊢
  omega

/-- A row that ends within the limit has its middle there, so delimiters in it are
    painted. -/
theorem addressable_box (hgap : g.boxGap = 0) (hfits : s.Fits g) : (s.box g p).Addressable := by
  intro _
  have hy := y_box p hgap hfits
  have hrows := hfits.rows
  have hheight : (s.box g p).height = g.lineHeight := rfl
  rw [Nat.add_mul] at hrows
  rw [hy, hheight]
  omega

/-- The paint of a box begins at the upper edge of its row, or at that of the lower
    half, and ends at the lower edge. -/
theorem covers_painted_iff (hgap : g.boxGap = 0) (hfits : s.Fits g) (px py : Nat) :
    (s.box g p).painted.Covers px py ↔
      (s.column * g.charWidth.val ≤ px ∧
        px < (s.column + s.fragment.content.length) * g.charWidth.val) ∧
      s.row * g.lineHeight.val +
        (if s.fragment.kind = .delimiter then g.lineHeight.val - g.lineHeight.val / 2 else 0) ≤ py ∧
      py < (s.row + 1) * g.lineHeight.val := by
  have hx := x_box p hgap hfits
  have hright := right_box p hgap hfits
  have hy := y_box p hgap hfits
  have hbottom := bottom_box p hgap hfits
  have hrows := hfits.rows
  have hheight : (s.box g p).height = g.lineHeight := rfl
  have hfragment : (s.box g p).fragment = s.fragment := rfl
  rw [Nat.add_mul] at hrows
  rw [Area.Covers, Box.right_painted, Box.bottom_painted, hright, hbottom, Box.painted, hfragment]
  by_cases hkind : s.fragment.kind = .delimiter
  · -- The middle of a row within the limit lies within it.
    have htop := Extent.val_clamp_of_le (n := s.row * g.lineHeight.val +
      (g.lineHeight.val - g.lineHeight.val / 2)) (by omega)
    simp only [if_pos hkind, hx, hy, hheight, htop]
  · simp only [if_neg hkind, hx, hy, Nat.add_zero]

/-- The paint of a box covers the pixels of its cells, of delimiters only those in
    the lower half of the row. -/
theorem covers_painted_box (hgap : g.boxGap = 0) (hwidth : 1 ≤ g.charWidth.val)
    (hheight : 1 ≤ g.lineHeight.val) (hfits : s.Fits g) (px py : Nat) :
    (s.box g p).painted.Covers px py ↔
      s.Holds (py / g.lineHeight.val) (px / g.charWidth.val) ∧
        (s.fragment.kind = .delimiter →
          g.lineHeight.val - g.lineHeight.val / 2 ≤ py % g.lineHeight.val) := by
  have hleft := Nat.le_div_iff_mul_le (x := s.column) (y := px) hwidth
  have hright := Nat.div_lt_iff_lt_mul (x := px) (y := s.column + s.fragment.content.length) hwidth
  have hupper := Nat.le_div_iff_mul_le (x := s.row) (y := py) hheight
  have hlower := Nat.div_lt_iff_lt_mul (x := py) (y := s.row + 1) hheight
  -- In its own row a pixel lies as far below the upper edge as its remainder says.
  have hinside : s.row = py / g.lineHeight.val →
      s.row * g.lineHeight.val + py % g.lineHeight.val = py := fun hrow => by
    rw [hrow]
    exact Nat.div_add_mod' py g.lineHeight.val
  rw [covers_painted_iff p hgap hfits, Holds, hleft, hright]
  by_cases hkind : s.fragment.kind = .delimiter
  · simp only [hkind, if_true, forall_const]
    constructor
    · rintro ⟨hcolumns, htop, hbottom⟩
      have hrow : s.row = py / g.lineHeight.val :=
        Nat.le_antisymm (hupper.mpr (by omega)) (Nat.le_of_lt_succ (hlower.mpr hbottom))
      have hpy := hinside hrow
      exact ⟨⟨hrow, hcolumns⟩, by omega⟩
    · rintro ⟨⟨hrow, hcolumns⟩, hhalf⟩
      have hpy := hinside hrow
      exact ⟨hcolumns, by omega, hlower.mp (by omega)⟩
  · simp only [hkind, if_false, Nat.add_zero, false_implies, and_true]
    constructor
    · rintro ⟨hcolumns, htop, hbottom⟩
      exact ⟨Nat.le_antisymm (hupper.mpr htop) (Nat.le_of_lt_succ (hlower.mpr hbottom)), hcolumns⟩
    · rintro ⟨hrow, hcolumns⟩
      exact ⟨hcolumns, hupper.mp (by omega), hlower.mp (by omega)⟩

/-- A pixel whose cell no spot has keeps its colour. -/
theorem shade_of_not_holds (hgap : g.boxGap = 0) (hwidth : 1 ≤ g.charWidth.val)
    (hheight : 1 ≤ g.lineHeight.val) {spots : List Spot} (hfits : ∀ s ∈ spots, s.Fits g)
    {px py : Nat} (base : Color)
    (hnone : ∀ s ∈ spots, ¬ s.Holds (py / g.lineHeight.val) (px / g.charWidth.val)) :
    Image.shade px py base ((spots.map (Spot.box g p)).map fun b => (b.painted, b.color))
      = base := by
  induction spots with
  | nil => rfl
  | cons s spots ih =>
      -- The paint of a box stays in the cells of its spot.
      have hcovers : ¬ (s.box g p).painted.Covers px py := by
        rw [covers_painted_box p hgap hwidth hheight (hfits s List.mem_cons_self)]
        exact fun h => hnone s List.mem_cons_self h.1
      rw [List.map_cons, List.map_cons, Image.shade_cons, if_neg hcovers]
      exact ih (fun t ht => hfits t (List.mem_cons_of_mem s ht))
        fun t ht => hnone t (List.mem_cons_of_mem s ht)

/-- A pixel whose cell a spot has shows the colour of its fragment, or still the
    colour below in the upper half of delimiters. -/
theorem shade_of_holds (hgap : g.boxGap = 0) (hwidth : 1 ≤ g.charWidth.val)
    (hheight : 1 ≤ g.lineHeight.val) {spots : List Spot} (hfits : ∀ s ∈ spots, s.Fits g)
    (hapart : spots.Pairwise fun s t => ∀ l c, s.Holds l c → ¬ t.Holds l c) {px py : Nat}
    (base : Color) {s : Spot} (hs : s ∈ spots)
    (hholds : s.Holds (py / g.lineHeight.val) (px / g.charWidth.val)) :
    Image.shade px py base ((spots.map (Spot.box g p)).map fun b => (b.painted, b.color))
      = if s.fragment.kind = .delimiter ∧
          py % g.lineHeight.val < g.lineHeight.val - g.lineHeight.val / 2
        then base else p.color s.fragment.kind := by
  induction spots with
  | nil => exact absurd hs List.not_mem_nil
  | cons t spots ih =>
      have hrest : ∀ u ∈ spots, u.Fits g := fun u hu => hfits u (List.mem_cons_of_mem t hu)
      have hcovers := covers_painted_box p hgap hwidth hheight (hfits t List.mem_cons_self) px py
      rcases List.pairwise_cons.mp hapart with ⟨ht, hlater⟩
      rw [List.map_cons, List.map_cons, Image.shade_cons]
      rcases List.mem_cons.mp hs with heq | hs
      · -- No later box touches the pixel.
        rw [shade_of_not_holds p hgap hwidth hheight hrest _ fun u hu =>
          ht u hu _ _ (heq ▸ hholds), heq]
        rw [heq] at hholds
        by_cases hupper : t.fragment.kind = .delimiter ∧
            py % g.lineHeight.val < g.lineHeight.val - g.lineHeight.val / 2
        · have hmissed : ¬ (t.box g p).painted.Covers px py := by
            rw [hcovers]
            exact fun h => Nat.not_le.mpr hupper.2 (h.2 hupper.1)
          rw [if_neg hmissed, if_pos hupper]
        · have hhit : (t.box g p).painted.Covers px py :=
            hcovers.mpr ⟨hholds, fun hkind => Nat.not_lt.mp fun hlt => hupper ⟨hkind, hlt⟩⟩
          rw [if_pos hhit, if_neg hupper]
          rfl
      · -- The box at this spot does not touch it, as another spot has the cell.
        have hother : ¬ (t.box g p).painted.Covers px py := by
          rw [hcovers]
          exact fun h => ht s hs _ _ h.1 hholds
        rw [if_neg hother]
        exact ih hrest hlater hs

end Spot

/-! ### The size of a layout -/

namespace Layout

section

variable {g : Geometry} (p : Palette) {fs : List Fragment}

/-- A picture is as wide as the longest line of its text. -/
theorem width_eq_longest (hgap : g.boxGap = 0) (hkeeps : ∀ f ∈ fs, f.KeepsLines)
    (hfits : ∀ s ∈ Fragment.spots 0 0 0 fs, s.Fits g) :
    (ofFragments g p fs).width.val
      = Text.longest (Text.lines (fs.flatMap (·.content))) * g.charWidth.val := by
  rw [width_ofFragments]
  refine Nat.le_antisymm (largest_le fun n hn => ?_) ?_
  · rcases List.mem_map.mp hn with ⟨s, hs, hsn⟩
    rcases Fragment.line_of_spot hkeeps hs with ⟨line, hline, hlength⟩
    have hlongest := Text.length_le_longest (List.mem_of_getElem? hline)
    rw [← hsn, Spot.right_box p hgap (hfits s hs)]
    exact Nat.mul_le_mul_right _ (Nat.le_trans hlength hlongest)
  · rcases Nat.eq_zero_or_pos (Text.longest (Text.lines (fs.flatMap (·.content)))) with
      hzero | hpos
    · rw [hzero, Nat.zero_mul]
      exact Nat.zero_le _
    · -- The last cell of the longest line belongs to the box with the furthest edge.
      rcases Text.exists_of_lt_longest (Nat.sub_one_lt_of_lt hpos) with ⟨line, hmem, hlt⟩
      rcases List.mem_iff_getElem?.mp hmem with ⟨i, hi⟩
      rcases Fragment.spot_of_cell hkeeps hi hlt with ⟨s, hs, ⟨-, -, hend⟩, -⟩
      refine Nat.le_trans ?_ (le_largest (List.mem_map_of_mem hs))
      rw [Spot.right_box p hgap (hfits s hs)]
      exact Nat.mul_le_mul_right _ (by omega)

/-- The height of a layout reaches through the last line that is not empty. -/
theorem height_eq_last (hgap : g.boxGap = 0) (hkeeps : ∀ f ∈ fs, f.KeepsLines)
    (hne : ∀ f ∈ fs, f.content ≠ []) (hfits : ∀ s ∈ Fragment.spots 0 0 0 fs, s.Fits g)
    {i : Nat} {line : List Char} (hline : (Text.lines (fs.flatMap (·.content)))[i]? = some line)
    (hlast : line ≠ [])
    (hlater : ∀ later ∈ (Text.lines (fs.flatMap (·.content))).drop (i + 1), later = []) :
    (ofFragments g p fs).height.val = (1 + i) * g.lineHeight.val := by
  rw [height_ofFragments]
  refine Nat.le_antisymm (largest_le fun n hn => ?_) ?_
  · rcases List.mem_map.mp hn with ⟨s, hs, hsn⟩
    rcases Fragment.line_of_spot hkeeps hs with ⟨own, hown, -⟩
    -- A spot further down would be in one of the lines that are empty.
    have hrow : s.row ≤ i := by
      by_contra hbelow
      have hmem : own ∈ (Text.lines (fs.flatMap (·.content))).drop (i + 1) := by
        refine List.mem_of_getElem? (i := s.row - (i + 1)) ?_
        rw [List.getElem?_drop, Nat.add_sub_cancel' (by omega), hown]
      exact Fragment.line_ne_nil_of_spot hkeeps hne hs hown (hlater own hmem)
    rw [← hsn, Spot.bottom_box p hgap (hfits s hs)]
    exact Nat.mul_le_mul_right _ (by omega)
  · rcases Fragment.spot_of_cell hkeeps hline (List.length_pos_of_ne_nil hlast) with
      ⟨s, hs, ⟨hrow, -, -⟩, -⟩
    refine Nat.le_trans ?_ (le_largest (List.mem_map_of_mem hs))
    rw [Spot.bottom_box p hgap (hfits s hs), hrow, Nat.add_comm]

/-- Where every line is empty there is nothing to lay out. -/
theorem size_eq_zero (hkeeps : ∀ f ∈ fs, f.KeepsLines) (hne : ∀ f ∈ fs, f.content ≠ [])
    (hempty : ∀ line ∈ Text.lines (fs.flatMap (·.content)), line = []) :
    (ofFragments g p fs).width.val = 0 ∧ (ofFragments g p fs).height.val = 0 := by
  -- A spot would have a character in its line.
  have hspots : Fragment.spots 0 0 0 fs = [] := by
    refine List.eq_nil_iff_forall_not_mem.mpr fun s hs => ?_
    rcases Fragment.line_of_spot hkeeps hs with ⟨line, hline, -⟩
    exact Fragment.line_ne_nil_of_spot hkeeps hne hs hline
      (hempty line (List.mem_of_getElem? hline))
  rw [width_ofFragments, height_ofFragments, hspots]
  exact ⟨rfl, rfl⟩

/-- Above the lower edge of a layout every row of pixels belongs to a line. -/
theorem exists_line_of_lt_height (hgap : g.boxGap = 0) (hheight : 1 ≤ g.lineHeight.val)
    (hkeeps : ∀ f ∈ fs, f.KeepsLines) (hfits : ∀ s ∈ Fragment.spots 0 0 0 fs, s.Fits g) {py : Nat}
    (hpy : py < (ofFragments g p fs).height.val) :
    ∃ line, (Text.lines (fs.flatMap (·.content)))[py / g.lineHeight.val]? = some line := by
  rw [height_ofFragments] at hpy
  -- Some box ends below the pixel, so the text has lines down to the one in question.
  rcases exists_of_lt_largest hpy with ⟨n, hn, hlt⟩
  rcases List.mem_map.mp hn with ⟨s, hs, hsn⟩
  rcases Fragment.line_of_spot hkeeps hs with ⟨own, hown, -⟩
  rw [← hsn, Spot.bottom_box p hgap (hfits s hs), ← Nat.div_lt_iff_lt_mul hheight] at hlt
  have hlength := (List.getElem?_eq_some_iff.mp hown).1
  exact ⟨_, List.getElem?_eq_getElem (by omega)⟩

end

end Layout

/-! ### Pictures of texts -/

/-- A picture shows the lines of a text in the colours of a palette, where `fs` are
    the fragments of the text. -/
structure Image.Depicts (image : Image) (g : Geometry) (p : Palette) (fs : List Fragment)
    (lines : List (List Char)) : Prop where
  /-- The picture is as wide as the longest line. -/
  width : image.width.val = g.charWidth.val * Text.longest lines
  /-- It reaches down through the last line that is not empty. -/
  height : ∀ i line, lines[i]? = some line → line ≠ [] →
    (∀ later ∈ lines.drop (i + 1), later = []) →
      image.height.val = g.lineHeight.val * (1 + i)
  /-- It has no extent if every line is empty. -/
  empty : (∀ line ∈ lines, line = []) → image.width.val = 0 ∧ image.height.val = 0
  /-- A pixel behind the end of its line is background. Any other shows the kind of
      the fragment that holds its character, delimiters in the lower half of the
      row only. -/
  pixel : ∀ px py, px < image.width.val → py < image.height.val →
    ∃ line, lines[py / g.lineHeight.val]? = some line ∧
      (line.length ≤ px / g.charWidth.val → image.pixel? px py = some p.background) ∧
      (px / g.charWidth.val < line.length → ∃ f,
        Fragment.holding fs (Text.position lines (py / g.lineHeight.val) (px / g.charWidth.val))
          = some f ∧
        image.pixel? px py =
          if f.kind = .delimiter ∧
              py % g.lineHeight.val < g.lineHeight.val - g.lineHeight.val / 2
          then some p.background else some (p.color f.kind))

namespace Layout

/-- Fragments whose cells lie within the limit are depicted. -/
theorem depicts_ofFragments {g : Geometry} (p : Palette) {fs : List Fragment}
    (hgap : g.boxGap = 0) (hwidth : 1 ≤ g.charWidth.val) (hheight : 1 ≤ g.lineHeight.val)
    (hkeeps : ∀ f ∈ fs, f.KeepsLines) (hne : ∀ f ∈ fs, f.content ≠ [])
    (hfits : ∀ s ∈ Fragment.spots 0 0 0 fs, s.Fits g) :
    ∃ image, (ofFragments g p fs).render p = .ok image ∧
      image.Depicts g p fs (Text.lines (fs.flatMap (·.content))) := by
  have hboxes : (ofFragments g p fs).boxes.toList
      = (Fragment.spots 0 0 0 fs).map (Spot.box g p) := by
    rw [ofFragments_eq, toList_boxes_ofBoxes]
  have haddressable : ∀ b ∈ (ofFragments g p fs).boxes.toList, b.Addressable := by
    intro b hb
    rw [hboxes] at hb
    rcases List.mem_map.mp hb with ⟨s, hs, hsb⟩
    rw [← hsb]
    exact Spot.addressable_box p hgap (hfits s hs)
  rcases pixel?_render _ p haddressable with ⟨image, hrender, himageWidth, himageHeight, hpixel⟩
  refine ⟨image, hrender, ?_, ?_, ?_, ?_⟩
  · rw [himageWidth, width_eq_longest p hgap hkeeps hfits, Nat.mul_comm]
  · intro i line hline hlast hlater
    rw [himageHeight, height_eq_last p hgap hkeeps hne hfits hline hlast hlater, Nat.mul_comm]
  · rw [himageWidth, himageHeight]
    exact size_eq_zero p hkeeps hne
  · intro px py hpx hpy
    rw [himageWidth] at hpx
    rw [himageHeight] at hpy
    rcases exists_line_of_lt_height p hgap hheight hkeeps hfits hpy with ⟨line, hline⟩
    rw [hpixel, if_pos ⟨hpx, hpy⟩, hboxes]
    refine ⟨line, hline, fun hend => ?_, fun hin => ?_⟩
    · -- A spot with this cell would reach past the end of the line.
      rw [Spot.shade_of_not_holds p hgap hwidth hheight hfits]
      intro s hs hholds
      rcases Fragment.line_of_spot hkeeps hs with ⟨own, hown, hlength⟩
      rw [hholds.1, hline, Option.some.injEq] at hown
      rw [← hown] at hlength
      exact absurd hholds.2.2 (by omega)
    · rcases Fragment.spot_of_cell hkeeps hline hin with ⟨s, hs, hholds, hholding⟩
      refine ⟨s.fragment, hholding, ?_⟩
      rw [Spot.shade_of_holds p hgap hwidth hheight hfits (Fragment.pairwise_spots fs 0 0 0) _ hs
        hholds]
      split <;> rfl

end Layout

namespace Settings

/-- The picture of a text depicts it, if there are no gaps and the lines of the
    normal text lie within the limit. -/
theorem depicts_text (s : Settings) (text : List Char) (hgap : s.geometry.boxGap = 0)
    (hwidth : 1 ≤ s.geometry.charWidth.val) (hheight : 1 ≤ s.geometry.lineHeight.val)
    (hrows : (Text.lines (Text.normalize text)).length * s.geometry.lineHeight.val
      ≤ Extent.limit)
    (hcolumns : Text.longest (Text.lines (Text.normalize text)) * s.geometry.charWidth.val
      ≤ Extent.limit) :
    ∃ fs l image, s.fragments text = .ok fs ∧ s.layout text = .ok l ∧
      l.render s.palette = .ok image ∧
      image.Depicts s.geometry s.palette fs (Text.lines (Text.normalize text)) := by
  have hok := s.fragments_eq text
  have hkeeps := s.keepsLines_of_mem_fragments text hok
  have hne := s.content_ne_nil_of_mem_fragments text hok
  have htext := s.flatMap_content_fragments text hok
  rw [← htext] at hrows hcolumns ⊢
  -- A spot is within the limit because its line is, and that is no longer than the longest.
  have hfits : ∀ t ∈ Fragment.spots 0 0 0
      (Fragment.condensed ((Fragment.scan text).map s.vocabulary.resolve)),
      t.Fits s.geometry := by
    intro t ht
    rcases Fragment.line_of_spot hkeeps ht with ⟨line, hline, hlength⟩
    have hlongest := Text.length_le_longest (List.mem_of_getElem? hline)
    have hlast := (List.getElem?_eq_some_iff.mp hline).1
    refine ⟨Nat.le_trans (Nat.mul_le_mul_right _ ?_) hcolumns,
      Nat.le_trans (Nat.mul_le_mul_right _ hlast) hrows⟩
    exact Nat.le_trans hlength hlongest
  rcases Layout.depicts_ofFragments s.palette hgap hwidth hheight hkeeps hne hfits with
    ⟨image, hrender, hdepicts⟩
  exact ⟨_, _, image, hok, s.layout_eq text hok, hrender, hdepicts⟩

/-- A word and a sign, an empty line, and a slash behind a tab: five characters wide
    and three lines high. -/
theorem depicts_three_lines :
    ∃ l image, layout {} ['a', ';', '\r', '\n', '\n', '\t', '/'] = .ok l ∧
      l.render .standard = .ok image ∧ image.width.val = 4 * 5 ∧ image.height.val = 4 * 3 := by
  rcases depicts_text {} ['a', ';', '\r', '\n', '\n', '\t', '/'] rfl (by decide) (by decide)
    (by decide) (by decide) with ⟨fs, l, image, -, hlayout, hrender, hdepicts⟩
  refine ⟨l, image, hlayout, hrender, hdepicts.width, ?_⟩
  exact hdepicts.height 2 [' ', ' ', ' ', ' ', '/'] rfl (by decide) (by decide)

end Settings

end SourceTexture
