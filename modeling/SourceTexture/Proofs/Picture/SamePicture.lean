import SourceTexture.Proofs.Picture.Painting
import SourceTexture.Proofs.Picture.Placement

/-!
# The same picture

When two lists of boxes cannot be told apart by their pictures.

A picture shows less than the boxes it is made of: not how many there are, nor
the order in which they were painted where none lies on another. Two lists of
boxes give the same picture if they reach equally far, if the paint of all
boxes begins within the limit in both or in neither, and if painting the one and
painting the other changes every picture in the same way.

The last condition is about any picture and not only about an empty canvas. That
is what makes the relation one that may be used inside a longer list: more boxes
may be painted in front, and the same boxes then still give the same picture.

Where the paint of some box begins past the limit there is no picture at all, and
it does not matter which box that is, for there is only one way to fail.

## Main definitions

* `Box.paint`: A picture with a box painted on it.
* `Box.SamePicture`: Two lists of boxes give the same picture.

## Theorems

* `Layout.render_eq_overflow`: A layout with a box that is not addressable is
  not rendered.
* `Layout.render_cases`: There is no other way to fail.
* `Box.SamePicture.cons`, `Box.SamePicture.trans`: How the relation is used.
* `Box.SamePicture.render_ofBoxes`: Layouts of such boxes are rendered alike.
-/

namespace SourceTexture

/-- The largest number depends only on which numbers there are. -/
theorem largest_eq_of_mem_iff {ms ns : List Nat} (h : ∀ n, n ∈ ms ↔ n ∈ ns) :
    largest ms = largest ns := by
  apply Nat.le_antisymm
  · exact largest_le fun n hn => le_largest ((h n).mp hn)
  · exact largest_le fun n hn => le_largest ((h n).mpr hn)

/-- A box that is not addressable has no area. -/
theorem Box.paintArea_eq_overflow {b : Box} (h : ¬ b.Addressable) :
    b.paintArea = .error .overflow := by
  unfold Addressable at h
  -- Only a delimiter that begins past the limit is not addressable.
  rcases Classical.not_imp.mp h with ⟨hkind, hpast⟩
  have htop : Extent.ofNat? (b.y.val + (b.height.val - (Extent.clamp (b.height.val / 2)).val))
      = none := by
    rw [Extent.val_clamp_half, Extent.ofNat?, dif_neg hpast]
  simp only [paintArea, if_pos hkind, htop]

namespace Layout

/-- One such box is enough, wherever it stands among the others. -/
theorem areas_eq_overflow (l : Layout) (h : ¬ ∀ b ∈ l.boxes.toList, b.Addressable) :
    l.areas = .error .overflow := by
  unfold areas
  generalize l.boxes.toList = boxes at h
  induction boxes with
  | nil => exact absurd (fun b hb => absurd hb List.not_mem_nil) h
  | cons b boxes ih =>
      rw [List.mapM_cons]
      by_cases hb : b.Addressable
      · -- The first box has its area, so one behind it has none.
        have hrest : ¬ ∀ c ∈ boxes, c.Addressable := by
          intro hall
          exact h (List.forall_mem_cons.mpr ⟨hb, hall⟩)
        rw [Box.paintArea_eq_ok hb, ih hrest]
        rfl
      · rw [Box.paintArea_eq_overflow hb]
        rfl

theorem render_eq_overflow (l : Layout) (p : Palette)
    (h : ¬ ∀ b ∈ l.boxes.toList, b.Addressable) : l.render p = .error .overflow := by
  unfold render
  rw [areas_eq_overflow l h]
  rfl

/-- A layout is rendered, or the paint of some box begins past the limit. -/
theorem render_cases (l : Layout) (p : Palette) :
    l.render p = .error .overflow ∨ ∃ image, l.render p = .ok image := by
  by_cases h : ∀ b ∈ l.boxes.toList, b.Addressable
  · exact Or.inr ⟨_, l.render_eq_ok p h⟩
  · exact Or.inl (l.render_eq_overflow p h)

end Layout

namespace Box

/-- The picture with an addressable box painted on it. -/
def paint (image : Image) (b : Box) : Image :=
  image.fill b.painted b.color

theorem fillAll_eq_foldl_paint (image : Image) (boxes : List Box) :
    image.fillAll (boxes.map fun b => (b.painted, b.color)) = boxes.foldl paint image := by
  unfold Image.fillAll
  rw [List.foldl_map]
  rfl

/-- Two lists of boxes that give the same picture. -/
structure SamePicture (bs cs : List Box) : Prop where
  /-- They reach equally far to the right. -/
  right : largest (bs.map fun b => b.right.val) = largest (cs.map fun b => b.right.val)
  /-- They reach equally far down. -/
  bottom : largest (bs.map fun b => b.bottom.val) = largest (cs.map fun b => b.bottom.val)
  /-- All of the one can be painted if all of the other can. -/
  addressable : (∀ b ∈ bs, b.Addressable) ↔ ∀ c ∈ cs, c.Addressable
  /-- Painting them does the same to any picture. -/
  paint : ∀ image, bs.foldl paint image = cs.foldl paint image

namespace SamePicture

theorem refl (bs : List Box) : SamePicture bs bs :=
  ⟨rfl, rfl, Iff.rfl, fun _ => rfl⟩

theorem trans {bs cs ds : List Box} (h : SamePicture bs cs) (h' : SamePicture cs ds) :
    SamePicture bs ds :=
  ⟨h.right.trans h'.right, h.bottom.trans h'.bottom, h.addressable.trans h'.addressable,
    fun image => (h.paint image).trans (h'.paint image)⟩

/-- One more box may be painted in front of both. -/
theorem cons {bs cs : List Box} (h : SamePicture bs cs) (b : Box) :
    SamePicture (b :: bs) (b :: cs) := by
  refine ⟨?_, ?_, ?_, ?_⟩
  · rw [List.map_cons, List.map_cons, largest_cons, largest_cons, h.right]
  · rw [List.map_cons, List.map_cons, largest_cons, largest_cons, h.bottom]
  · rw [List.forall_mem_cons, List.forall_mem_cons, h.addressable]
  · intro image
    rw [List.foldl_cons, List.foldl_cons, h.paint]

/-- They have canvases of the same size, since that is how far they reach. -/
theorem size_ofBoxes {bs cs : List Box} (h : SamePicture bs cs) :
    (Layout.ofBoxes bs).width = (Layout.ofBoxes cs).width ∧
      (Layout.ofBoxes bs).height = (Layout.ofBoxes cs).height := by
  constructor
  · ext
    rw [Layout.width_ofBoxes, Layout.width_ofBoxes, h.right]
  · ext
    rw [Layout.height_ofBoxes, Layout.height_ofBoxes, h.bottom]

/-- They are rendered alike, and if one list of boxes overflows so does the other. -/
theorem render_ofBoxes {bs cs : List Box} (h : SamePicture bs cs) (p : Palette) :
    (Layout.ofBoxes bs).render p = (Layout.ofBoxes cs).render p := by
  rcases h.size_ofBoxes with ⟨hwidth, hheight⟩
  by_cases hall : ∀ b ∈ bs, b.Addressable
  · have hall' := h.addressable.mp hall
    rw [Layout.render_eq_ok _ p (by rwa [Layout.toList_boxes_ofBoxes]),
      Layout.render_eq_ok _ p (by rwa [Layout.toList_boxes_ofBoxes]), hwidth, hheight,
      Layout.toList_boxes_ofBoxes, Layout.toList_boxes_ofBoxes, fillAll_eq_foldl_paint,
      fillAll_eq_foldl_paint, h.paint]
  · -- Which box it is that cannot be painted does not show in the error.
    have hall' : ¬ ∀ c ∈ cs, c.Addressable := fun hc => hall (h.addressable.mpr hc)
    rw [Layout.render_eq_overflow _ p (by rwa [Layout.toList_boxes_ofBoxes]),
      Layout.render_eq_overflow _ p (by rwa [Layout.toList_boxes_ofBoxes])]

end SamePicture

end Box

end SourceTexture
