import SourceTexture.Proofs.Picture.Exactness
import SourceTexture.Proofs.Picture.Uppermost

/-!
# Overflow

Which texts have no picture.

Every coordinate of a layout stops at the limit, with one exception. A box of
delimiters is painted from the middle of its row downwards, and the edge at which
that begins is added up without stopping. Where the sum passes the limit there is
no edge to paint from, and the whole text is not rendered, although nothing of the
box would be seen anyway.

It takes a row far down. The first row begins at zero and its middle is within the
limit, however high it is, and so is the middle of any row that ends within the
limit. Past that point it depends on what stands in the row: a text is not rendered
exactly if a delimiter stands in a row whose lower half begins past the limit.

Everything else goes well. A box that is painted at all is painted inside its own
rectangle.

## Main definitions

* `Geometry.HalfPastLimit`: The lower half of a row begins past the limit.

## Theorems

* `Layout.render_eq_overflow_iff`: A layout is not rendered if one of its boxes has
  no edge to paint from.
* `Settings.overflows_iff`: A text is not rendered if a delimiter stands too far
  down.
* `Settings.overflows_second_row`: A text of two rows that is not rendered.
-/

namespace SourceTexture

/-- A layout overflows exactly if there is a box in it that has no edge to paint
    from. -/
theorem Layout.render_eq_overflow_iff (l : Layout) (p : Palette) :
    l.render p = .error .overflow ↔ ∃ b ∈ l.boxes.toList, ¬ b.Addressable := by
  constructor
  · intro hrender
    -- Painting stops at the first box without an edge, so there must be one.
    by_contra hnone
    have hall : ∀ b ∈ l.boxes.toList, b.Addressable :=
      fun b hb => by_contra fun hpast => hnone ⟨b, hb, hpast⟩
    rw [l.render_eq_ok p hall] at hrender
    cases hrender
  · rintro ⟨b, hb, hpast⟩
    exact l.render_eq_overflow p fun hall => hpast (hall b hb)

/-- Whether the lower half of a row begins past the limit, rows being counted from
    zero. Its upper edge itself stops at the limit. -/
def Geometry.HalfPastLimit (g : Geometry) (row : Nat) : Prop :=
  Extent.limit < min Extent.limit (row * (g.lineHeight.val + g.boxGap.val))
    + (g.lineHeight.val - g.lineHeight.val / 2)

/-- A row that ends within the limit has its middle there. -/
theorem Geometry.not_halfPastLimit {g : Geometry} {row : Nat}
    (h : row * (g.lineHeight.val + g.boxGap.val) + g.lineHeight.val ≤ Extent.limit) :
    ¬ g.HalfPastLimit row := by
  unfold HalfPastLimit
  omega

/-- A box has no edge to paint from exactly if it is one of delimiters, in a row whose
    lower half begins past the limit. -/
theorem Spot.not_addressable_iff (g : Geometry) (p : Palette) (front : List Fragment)
    (f : Fragment) :
    ¬ ((Fragment.spotBehind front f).box g p).Addressable ↔
      f.kind = .delimiter ∧ g.HalfPastLimit (Fragment.breaks front) := by
  have hclamped := clampedFrom_box g p front f
  rw [Box.Addressable, Classical.not_imp, hclamped.fragment, hclamped.y, hclamped.height,
    Nat.not_le, Geometry.HalfPastLimit]

namespace Layout

/-- The same of fragments, told without their boxes: a delimiter stands in a row whose
    lower half begins past the limit. -/
theorem render_ofFragments_eq_overflow_iff (g : Geometry) (p q : Palette) (fs : List Fragment) :
    (ofFragments g p fs).render q = .error .overflow ↔
      ∃ front f back, fs = front ++ f :: back ∧ f.kind = .delimiter ∧
        g.HalfPastLimit (Fragment.breaks front) := by
  rw [render_eq_overflow_iff, ofFragments_eq, toList_boxes_ofBoxes]
  constructor
  · rintro ⟨b, hb, hpast⟩
    rcases List.mem_map.mp hb with ⟨s, hs, rfl⟩
    rcases (Fragment.mem_spots_iff fs).mp hs with ⟨front, f, back, hfs, -, rfl⟩
    exact ⟨front, f, back, hfs, (Spot.not_addressable_iff g p front f).mp hpast⟩
  · rintro ⟨front, f, back, hfs, hpast⟩
    -- A delimiter is no line break, so it has a spot.
    have hkind : f.kind ≠ .lineFeed := by
      rw [hpast.1]
      decide
    have hs := (Fragment.mem_spots_iff fs).mpr ⟨front, f, back, hfs, hkind, rfl⟩
    exact ⟨_, List.mem_map_of_mem hs, (Spot.not_addressable_iff g p front f).mpr hpast⟩

end Layout

namespace Settings

/-- A text is rendered unless a delimiter stands in a row whose lower half begins past
    the limit, and then it is not. It is rendered in any case if its last row ends
    within the limit. A box that is painted is painted inside its rectangle, and one
    that is not is a box of delimiters that has no edge to paint from. -/
theorem overflows_iff (s : Settings) (text : List Char) :
    ∃ fs l, s.fragments text = .ok fs ∧ s.layout text = .ok l ∧
      (∀ b ∈ l.boxes.toList, (∃ a, b.paintArea = .ok a ∧ a.Within b) ∨
        b.paintArea = .error .overflow ∧ b.fragment.kind = .delimiter ∧
          Extent.limit < b.y.val + (b.height.val - b.height.val / 2)) ∧
      ∀ p, (l.render p = .error .overflow ∨ ∃ image, l.render p = .ok image) ∧
        (l.render p = .error .overflow ↔
          ∃ front f back, fs = front ++ f :: back ∧ f.kind = .delimiter ∧
            s.geometry.HalfPastLimit (Fragment.breaks front)) ∧
        (text.count '\n' * (s.geometry.lineHeight.val + s.geometry.boxGap.val)
            + s.geometry.lineHeight.val ≤ Extent.limit →
          ∃ image, l.render p = .ok image) := by
  obtain ⟨fs, hfs⟩ : ∃ fs, s.fragments text = .ok fs := ⟨_, s.fragments_eq text⟩
  refine ⟨fs, _, hfs, s.layout_eq text hfs, fun b _ => ?_, fun p => ?_⟩
  · by_cases h : b.Addressable
    · exact Or.inl ⟨_, Box.paintArea_eq_ok h, b.painted_within⟩
    · have hpast := Classical.not_imp.mp h
      exact Or.inr ⟨Box.paintArea_eq_overflow h, hpast.1, Nat.lt_of_not_le hpast.2⟩
  · have hcases := (s.layoutOf fs).render_cases p
    have hiff := Layout.render_ofFragments_eq_overflow_iff s.geometry s.palette p fs
    refine ⟨hcases, hiff, fun hlast => ?_⟩
    rcases hcases with hoverflow | hok
    · -- The row of the delimiter is not below the last one, and that ends in time.
      rcases hiff.mp hoverflow with ⟨front, f, back, hsplit, -, hpast⟩
      have hrows : Fragment.breaks front ≤ text.count '\n' := by
        rw [← Text.count_lineBreak_normalize, ← s.flatMap_content_fragments text hfs,
          ← Fragment.breaks_eq_count (s.keepsLines_of_mem_fragments text hfs), hsplit,
          Fragment.breaks, Fragment.breaks, List.countP_append]
        exact Nat.le_add_right _ _
      have hends := Nat.mul_le_mul_right
        (s.geometry.lineHeight.val + s.geometry.boxGap.val) hrows
      exact absurd hpast (Geometry.not_halfPastLimit (by omega))
    · exact hok

/-- Two rows that together are not higher than the limit are rendered, with a delimiter
    in the second. -/
theorem overflows_not_within_limit :
    ∃ l image, layout { geometry := ⟨1, Extent.clamp 2147483647, 0⟩ } ['\n', ';'] = .ok l ∧
      l.render .standard = .ok image := by
  rcases overflows_iff { geometry := ⟨1, Extent.clamp 2147483647, 0⟩ } ['\n', ';'] with
    ⟨_, l, -, hlayout, -, hrender⟩
  rcases (hrender .standard).2.2 (by decide) with ⟨image, himage⟩
  exact ⟨l, image, hlayout, himage⟩

/-- In rows as high as the limit the second one begins at the limit. A delimiter there
    has no edge to paint from, and the text is not rendered. -/
theorem overflows_second_row :
    ∃ l, layout { geometry := ⟨0, Extent.clamp Extent.limit, 0⟩ } ['\n', ';'] = .ok l ∧
      (∃ b ∈ l.boxes.toList, b.paintArea = .error .overflow) ∧
      l.render .standard = .error .overflow :=
  ⟨_, rfl, ⟨_, List.mem_singleton_self _, rfl⟩, rfl⟩

end Settings

end SourceTexture
