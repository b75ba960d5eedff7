import SourceTexture.Proofs.Fragment.Condensing
import SourceTexture.Proofs.Picture.SamePicture

/-!
# Seams

Where there are no gaps, a picture does not show how a row was cut into
fragments.

Condensing makes one box of several. The wide box begins where the first of the
narrow ones begins and ends where the last one ends, because widths add up: a
box begins at the very edge at which its left neighbour ends. That is true at
the limit as well, where both edges are the limit, as each edge is an exact
number of characters that is clamped in the end. The boxes are of one kind, so
they have one colour, and of delimiters all show their lower half, at the same
height in the row. Where this half begins past the limit it does so for the
narrow boxes and for the wide one.

So one join does not show, and condensing is a matter of joins. It is built from
the right, and so is the proof: the fragments behind are condensed already, and
one more is put in front of them.

Gaps would show. Nor may a fragment be empty: condensing drops it, and its box
may have been all that a row consisted of.

## Main definitions

* `Box.Spans`: A box covers two boxes side by side and nothing else.

## Theorems

* `modifyBetween_append`: Adjoining stretches make one.
* `Image.fill_beside`: So do adjoining areas.
* `Box.SamePicture.of_spans`: Two boxes side by side look like the one that spans
  them.
* `Spot.spans_of_join`: The box of joined fragments spans their boxes.
* `Fragment.samePicture_condensed`: Condensed fragments give the same picture.
* `Layout.seams_unseen`: Without gaps condensing does not show.
-/

namespace SourceTexture

/-! ### Areas side by side -/

/-- Changing two adjoining stretches is changing the whole. -/
theorem modifyBetween_append {α : Type} (f : α → α) {first middle last : Nat} (a : Array α)
    (h : first ≤ middle) (h' : middle ≤ last) :
    modifyBetween f middle last (modifyBetween f first middle a)
      = modifyBetween f first last a := by
  apply Array.ext_getElem?
  intro j
  simp only [getElem?_modifyBetween]
  -- A position lies in the first stretch, in the second, or in neither.
  by_cases hleft : first ≤ j ∧ j < middle
  · rw [if_neg (by omega), if_pos hleft, if_pos (by omega)]
  · rw [if_neg hleft]
    by_cases hright : middle ≤ j ∧ j < last
    · rw [if_pos hright, if_pos (by omega)]
    · rw [if_neg hright, if_neg (by omega)]

/-- Changing a stretch twice is changing it once by both changes. -/
theorem modifyBetween_comp {α : Type} (f f' : α → α) (first last : Nat) (a : Array α) :
    modifyBetween f' first last (modifyBetween f first last a)
      = modifyBetween (f' ∘ f) first last a := by
  apply Array.ext_getElem?
  intro j
  simp only [getElem?_modifyBetween]
  by_cases hj : first ≤ j ∧ j < last
  · simp only [if_pos hj, Option.map_map]
  · simp only [if_neg hj]

/-- Adding does not go back, not even at the limit. -/
theorem Extent.val_le_val_add (a b : Extent) : a.val ≤ (a + b).val := by
  have hle := a.val_le
  simp only [val_add]
  omega

/-- Filling two areas side by side is filling the area they make up. -/
theorem Image.fill_beside (image : Image) {a b whole : Area} (c : Color)
    (hleft : whole.x = a.x) (hseam : a.right = b.x) (hright : whole.right = b.right)
    (htop : a.y = whole.y ∧ b.y = whole.y)
    (hbottom : a.bottom = whole.bottom ∧ b.bottom = whole.bottom) :
    (image.fill a c).fill b c = image.fill whole c := by
  refine Image.ext rfl rfl ?_
  -- The areas share their rows, so it is enough to look at one of these.
  simp only [fill, htop, hbottom, modifyBetween_comp]
  congr 1
  funext row
  have hfirst : a.x.val ≤ a.right.val := Extent.val_le_val_add a.x a.width
  have hsecond : b.x.val ≤ b.right.val := Extent.val_le_val_add b.x b.width
  rw [hseam] at hfirst
  simp only [Function.comp_apply, hseam, hleft, hright]
  exact modifyBetween_append _ row hfirst hsecond

/-! ### Boxes side by side -/

namespace Box

/-- Whether a box covers two boxes that lie side by side, and nothing else, and is
    painted as they are. -/
structure Spans (whole a b : Box) : Prop where
  /-- It begins where the first begins. -/
  left : whole.x = a.x
  /-- The second begins where the first ends. -/
  seam : a.right = b.x
  /-- It ends where the second ends. -/
  right : whole.right = b.right
  /-- All three lie in one row. -/
  top : a.y = whole.y ∧ b.y = whole.y
  /-- They are equally high. -/
  height : a.height = whole.height ∧ b.height = whole.height
  /-- They are of one colour. -/
  color : a.color = whole.color ∧ b.color = whole.color
  /-- They are of one kind. -/
  kind : a.fragment.kind = whole.fragment.kind ∧ b.fragment.kind = whole.fragment.kind

namespace Spans

variable {whole a b : Box}

/-- Painting two boxes side by side is painting the box that spans them. -/
theorem paint_paint (h : Spans whole a b) (image : Image) :
    paint (paint image a) b = paint image whole := by
  have hright := h.right
  have hseam := h.seam
  unfold Box.right at hright hseam
  rw [h.left] at hright
  unfold paint
  rw [h.color.1, h.color.2]
  -- The same part of the row is painted of all three: all of it, or its lower half.
  by_cases hkind : whole.fragment.kind = .delimiter
  · apply Image.fill_beside <;>
      simp only [painted, h.kind, if_pos hkind, Area.right, Area.bottom, h.left, hseam, hright,
        h.top, h.height, and_self]
  · apply Image.fill_beside <;>
      simp only [painted, h.kind, if_neg hkind, Area.right, Area.bottom, h.left, hseam, hright,
        h.top, h.height, and_self]

theorem addressable_iff (h : Spans whole a b) :
    whole.Addressable ↔ a.Addressable ∧ b.Addressable := by
  simp only [Addressable, h.kind, h.top, h.height, and_self]

end Spans

/-- Two boxes side by side look like the box that spans them. -/
theorem SamePicture.of_spans {whole a b : Box} (h : Spans whole a b) (rest : List Box) :
    SamePicture (whole :: rest) (a :: b :: rest) := by
  have hbottom : a.bottom = whole.bottom ∧ b.bottom = whole.bottom := by
    simp only [Box.bottom, h.top, h.height, and_self]
  -- The right edge of the first box never counts, because the second reaches further.
  have hreach : a.right.val ≤ b.right.val := by
    rw [h.seam]
    exact Extent.val_le_val_add b.x b.width
  refine ⟨?_, ?_, ?_, fun image => ?_⟩
  · simp only [List.map_cons, largest_cons, h.right]
    omega
  · simp only [List.map_cons, largest_cons, hbottom]
    omega
  · simp only [List.forall_mem_cons, h.addressable_iff, and_assoc]
  · simp only [List.foldl_cons, h.paint_paint]

end Box

/-! ### Fragments side by side -/

namespace Spot

variable (g : Geometry) (p : Palette)

/-- Without gaps only the characters before a spot matter to its box, not the
    number of fragments they were cut into. -/
theorem box_of_gap (hgap : g.boxGap = 0) (row before before' column : Nat) (f : Fragment) :
    (⟨row, before, column, f⟩ : Spot).box g p = (⟨row, before', column, f⟩ : Spot).box g p := by
  simp only [box, hgap, Extent.val_zero, Nat.mul_zero]

/-- The box of joined fragments spans their boxes. -/
theorem spans_of_join (hgap : g.boxGap = 0) {f f' : Fragment} (h : f.kind = f'.kind)
    (row before column : Nat) :
    Box.Spans ((⟨row, before, column, ⟨f.kind, f.content ++ f'.content⟩⟩ : Spot).box g p)
      ((⟨row, before, column, f⟩ : Spot).box g p)
      ((⟨row, before + 1, column + f.content.length, f'⟩ : Spot).box g p) where
  left := rfl
  seam := by
    simp only [Box.right, box, hgap, Extent.val_zero, Nat.mul_zero, Nat.add_zero,
      Extent.clamp_add_clamp, Nat.add_mul]
  right := by
    simp only [Box.right, box, hgap, Extent.val_zero, Nat.mul_zero, Nat.add_zero,
      Extent.clamp_add_clamp, List.length_append, Nat.add_mul, Nat.add_assoc]
  top := ⟨rfl, rfl⟩
  height := ⟨rfl, rfl⟩
  color := ⟨rfl, by simp only [box, h]⟩
  kind := ⟨rfl, h.symm⟩

end Spot

namespace Fragment

variable {g : Geometry} (p : Palette)

/-- Without gaps a box depends on the characters in front of it, and not on how many
    fragments hold them. -/
theorem map_box_of_gap (hgap : g.boxGap = 0) (fs : List Fragment)
    (row before before' column : Nat) :
    (spots row before column fs).map (Spot.box g p)
      = (spots row before' column fs).map (Spot.box g p) := by
  induction fs generalizing row before before' column with
  | nil => rfl
  | cons f fs ih =>
      by_cases hkind : f.kind = .lineFeed
      · rw [spots_lineFeed hkind, spots_lineFeed hkind]
      · -- The count of fragments goes up by one on both sides, so the induction
        -- is for any two counts.
        rw [spots_of_ne hkind, spots_of_ne hkind, List.map_cons, List.map_cons,
          Spot.box_of_gap g p hgap row before before', ih row (before + 1) (before' + 1)]

/-- Whether a fragment is only put in front of others or joined with the first of
    them does not show. -/
theorem samePicture_attach (hgap : g.boxGap = 0) {f : Fragment} (hne : f.content ≠ [])
    (gs : List Fragment) (row before column : Nat) :
    Box.SamePicture ((spots row before column (f.attach gs)).map (Spot.box g p))
      ((spots row before column (f :: gs)).map (Spot.box g p)) := by
  cases gs with
  | nil =>
      rw [attach_nil hne]
      exact Box.SamePicture.refl _
  | cons e gs =>
      by_cases hjoins : f.kind = e.kind ∧ f.kind.mergeable
      · -- Line breaks are not joined, so all three have a spot.
        have hf : f.kind ≠ .lineFeed := by
          intro hkind
          rw [hkind] at hjoins
          exact Bool.noConfusion hjoins.2
        have he : e.kind ≠ .lineFeed := hjoins.1 ▸ hf
        have hwhole : (⟨f.kind, f.content ++ e.content⟩ : Fragment).kind ≠ .lineFeed := hf
        rw [attach_of_joins gs hne hjoins, spots_of_ne hwhole, spots_of_ne hf, spots_of_ne he,
          List.map_cons, List.map_cons, List.map_cons,
          map_box_of_gap p hgap gs row (before + 1) (before + 1 + 1), List.length_append,
          ← Nat.add_assoc]
        exact Box.SamePicture.of_spans (Spot.spans_of_join g p hgap hjoins.1 row before column) _
      · rw [attach_of_apart gs hne hjoins]
        exact Box.SamePicture.refl _

/-- Condensed fragments give the same picture, wherever the first is placed. -/
theorem samePicture_condensed (hgap : g.boxGap = 0) {fs : List Fragment}
    (hne : ∀ f ∈ fs, f.content ≠ []) (row before column : Nat) :
    Box.SamePicture ((spots row before column (condensed fs)).map (Spot.box g p))
      ((spots row before column fs).map (Spot.box g p)) := by
  induction fs generalizing row before column with
  | nil => exact Box.SamePicture.refl _
  | cons f fs ih =>
      have hrest : ∀ e ∈ fs, e.content ≠ [] := fun e he => hne e (List.mem_cons_of_mem f he)
      rw [condensed_cons]
      refine (samePicture_attach p hgap (hne f List.mem_cons_self) _ row before column).trans ?_
      -- With the first fragment in its place, the others are condensed behind it.
      by_cases hkind : f.kind = .lineFeed
      · rw [spots_lineFeed hkind, spots_lineFeed hkind]
        exact ih hrest (row + 1) 0 0
      · rw [spots_of_ne hkind, spots_of_ne hkind, List.map_cons, List.map_cons]
        exact (ih hrest row (before + 1) _).cons _

end Fragment

namespace Layout

/-- Seams are unseen. Without gaps, fragments that are not empty have a layout of
    the same size whether they are condensed or not, and it gives the same picture
    if there is one. -/
theorem seams_unseen {g : Geometry} (p q : Palette) {fs : List Fragment} (hgap : g.boxGap = 0)
    (hne : ∀ f ∈ fs, f.content ≠ []) :
    ∃ cs, Fragment.condense fs = .ok cs ∧
      (ofFragments g p cs).width = (ofFragments g p fs).width ∧
      (ofFragments g p cs).height = (ofFragments g p fs).height ∧
      ((ofFragments g p cs).render q = .error .overflow ∧
          (ofFragments g p fs).render q = .error .overflow ∨
        ∃ image, (ofFragments g p cs).render q = .ok image ∧
          (ofFragments g p fs).render q = .ok image) := by
  have hsame := Fragment.samePicture_condensed p hgap hne 0 0 0
  have hsize := hsame.size_ofBoxes
  have hrender := hsame.render_ofBoxes q
  simp only [← ofFragments_eq] at hsize hrender
  refine ⟨_, Fragment.condense_eq fs, hsize.1, hsize.2, ?_⟩
  rw [hrender]
  simpa only [and_self] using render_cases _ q

/-- Two delimiters and a word, each as wide as the limit. -/
theorem seams_unseen_at_limit :
    ∃ cs, Fragment.condense [⟨.delimiter, ['(']⟩, ⟨.delimiter, [')']⟩, ⟨.identifier, ['a']⟩]
        = .ok cs ∧
      (ofFragments ⟨Extent.clamp Extent.limit, 1, 0⟩ .standard cs).width
        = (ofFragments ⟨Extent.clamp Extent.limit, 1, 0⟩ .standard
          [⟨.delimiter, ['(']⟩, ⟨.delimiter, [')']⟩, ⟨.identifier, ['a']⟩]).width ∧
      (ofFragments ⟨Extent.clamp Extent.limit, 1, 0⟩ .standard cs).render .standard
        = (ofFragments ⟨Extent.clamp Extent.limit, 1, 0⟩ .standard
          [⟨.delimiter, ['(']⟩, ⟨.delimiter, [')']⟩, ⟨.identifier, ['a']⟩]).render .standard := by
  obtain ⟨cs, hcs, hwidth, -, hrender⟩ := @seams_unseen ⟨Extent.clamp Extent.limit, 1, 0⟩ .standard
    .standard [⟨.delimiter, ['(']⟩, ⟨.delimiter, [')']⟩, ⟨.identifier, ['a']⟩] rfl (by decide)
  refine ⟨cs, hcs, hwidth, ?_⟩
  rcases hrender with ⟨herror, herror'⟩ | ⟨image, hok, hok'⟩
  · rw [herror, herror']
  · rw [hok, hok']

end Layout

end SourceTexture
