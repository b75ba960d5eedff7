import SourceTexture.Proofs.Picture.Overflow

/-!
# Other colours

What the choice of colours has to do with a picture.

A palette is asked twice: for the colour of a kind when a fragment gets its box, and
for the background when a picture is begun. Nothing is decided by the answers. So a
text has the same boxes in all palettes, apart from their colours, and if its picture
cannot be painted in one palette it cannot be in any.

The pictures themselves go together as far as the palettes do. If a change of colours
turns one palette into another, it turns every picture in the one into the picture in
the other, pixel by pixel. It may make colours equal that were different, or equal to
the background. Two palettes in which a colour stands for kinds that the other one
tells apart are related in one direction only.

A palette is made from another by overrides, which may concern any kind, and the same
one again and again. What counts for a kind is the last override that names it. That is
how palettes are written here; a program that keeps them as a table has to write the
place of the kind and read the same place again, and `Palette.table` shows that it comes
to the same.

## Main definitions

* `Palette.Override`: A step in making a palette.
* `Palette.overrideAll`: A palette after such steps.
* `Palette.table`: The colours of a palette by the index of their kinds.
* `Image.mapColors`: A picture with every colour changed.
* `Layout.recolored`: A layout in the colours of a palette.

## Theorems

* `Palette.read_overrideAll`: What steps leave is what the last of them gives.
* `Palette.table_overrideAll`: Overrides write a table place by place.
* `Image.mapColors_fillAll`: Colours may be changed before painting or after it.
* `Layout.ofFragments_recolored`: Layouts differ by their colours only.
* `Layout.render_recolored`: Changing the colours of a palette changes those of a
  picture.
* `Settings.palette_changes_colors_only`: The same of texts, for all palettes.
-/

namespace SourceTexture

/-! ### Palettes -/

/-- A step in making a palette: a colour for one kind, or for the background. -/
inductive Palette.Override where
  /-- A kind gets another colour. -/
  | kind (k : Kind) (c : Color)
  /-- The background gets another colour. -/
  | background (c : Color)

namespace Palette

/-- The palette after a step. -/
def override (p : Palette) : Override → Palette
  | .kind k c => p.withColor k c
  | .background c => p.withBackground c

/-- The palette after steps in turn. -/
def overrideAll (p : Palette) (steps : List Override) : Palette :=
  steps.foldl override p

/-- The colour a step gives to a kind, if it is about that kind. -/
def Override.colorOf? (k : Kind) : Override → Option Color
  | .kind j c => if k = j then some c else none
  | .background _ => none

/-- The colour a step gives to the background, if it is about that. -/
def Override.background? : Override → Option Color
  | .kind _ _ => none
  | .background c => some c

/-- The colours of a palette, listed by the index of their kinds. -/
def table (p : Palette) : List Color :=
  Kind.all.map p.color

/-- The table after a step: one place of it is written, or none. -/
def Override.write (colors : List Color) : Override → List Color
  | .kind k c => colors.set k.index c
  | .background _ => colors

theorem overrideAll_cons (p : Palette) (step : Override) (steps : List Override) :
    p.overrideAll (step :: steps) = (p.override step).overrideAll steps := rfl

/-- A colour of a palette that every step either gives or leaves alone is in the end
    the last one given, and if none was it is still the first. -/
theorem read_overrideAll (read : Palette → Color) (given? : Override → Option Color)
    (h : ∀ p step, read (p.override step) = (given? step).getD (read p)) (p : Palette)
    (steps : List Override) :
    read (p.overrideAll steps) = (steps.filterMap given?).getLast?.getD (read p) := by
  induction steps generalizing p with
  | nil => rfl
  | cons step steps ih =>
      rw [overrideAll_cons, ih, h]
      cases hgiven : given? step with
      | none => rw [List.filterMap_cons_none hgiven, Option.getD_none]
      | some c =>
          -- The colour given here counts if none is given later.
          rw [List.filterMap_cons_some hgiven, List.getLast?_cons, Option.getD_some,
            Option.getD_some]

/-- The colour of a kind is the last one that was given to it. -/
theorem color_overrideAll (p : Palette) (steps : List Override) (k : Kind) :
    (p.overrideAll steps).color k
      = (steps.filterMap (Override.colorOf? k)).getLast?.getD (p.color k) := by
  refine read_overrideAll (color · k) (Override.colorOf? k) (fun p step => ?_) p steps
  cases step with
  | background c => rfl
  | kind j c =>
      simp only [override, color_withColor, Override.colorOf?]
      split <;> rfl

theorem background_overrideAll (p : Palette) (steps : List Override) :
    (p.overrideAll steps).background
      = (steps.filterMap Override.background?).getLast?.getD p.background := by
  refine read_overrideAll background Override.background? (fun p step => ?_) p steps
  cases step <;> rfl

theorem getElem?_table (p : Palette) (k : Kind) : p.table[k.index]? = some (p.color k) := by
  rw [table, List.getElem?_map, Kind.all_index]
  rfl

/-- Giving a colour to a kind writes one place of the table. -/
theorem table_override (p : Palette) (step : Override) :
    (p.override step).table = step.write p.table := by
  cases step with
  | background c => rfl
  | kind k c => cases k <;> rfl

theorem table_overrideAll (p : Palette) (steps : List Override) :
    (p.overrideAll steps).table = steps.foldl Override.write p.table := by
  induction steps generalizing p with
  | nil => rfl
  | cons step steps ih => rw [overrideAll_cons, ih, table_override, List.foldl_cons]

end Palette

/-! ### Pictures -/

/-- Elements may be changed before they are mapped or after it, if the changes match. -/
theorem map_modifyBetween {α β : Type} (f : α → β) {g : α → α} {g' : β → β}
    (h : ∀ a, f (g a) = g' (f a)) (first last : Nat) (xs : Array α) :
    (modifyBetween g first last xs).map f = modifyBetween g' first last (xs.map f) := by
  apply Array.ext_getElem?
  intro j
  simp only [Array.getElem?_map, getElem?_modifyBetween]
  split
  · rw [Option.map_map, Option.map_map]
    congr 1
    exact funext h
  · rfl

namespace Image

/-- The picture with the colour of every pixel changed. -/
def mapColors (f : Color → Color) (image : Image) : Image :=
  { image with rows := image.rows.map fun row => row.map f }

/-- Every pixel is changed, and none is added or lost. -/
theorem pixel?_mapColors (f : Color → Color) (image : Image) (x y : Nat) :
    (image.mapColors f).pixel? x y = (image.pixel? x y).map f := by
  simp only [pixel?, mapColors, Array.getElem?_map]
  cases image.rows[y]? with
  | none => rfl
  | some row => simp only [Option.map_some, Option.bind_some, Array.getElem?_map]

/-- A canvas of one colour becomes one of another. -/
theorem mapColors_blank (f : Color → Color) (width height : Extent) (c : Color) :
    (blank width height c).mapColors f = blank width height (f c) := by
  refine Image.ext rfl rfl ?_
  simp only [mapColors, blank]
  split
  · exact Array.map_empty
  · rw [Array.map_replicate, Array.map_replicate]

/-- An area may be filled before the colours are changed or after it. -/
theorem mapColors_fill (f : Color → Color) (image : Image) (a : Area) (c : Color) :
    (image.fill a c).mapColors f = (image.mapColors f).fill a (f c) := by
  refine Image.ext rfl rfl ?_
  simp only [mapColors, fill]
  -- Rows are changed by changing their pixels, and a new colour does not ask for the old.
  have hrow : ∀ row : Array Color,
      (modifyBetween (fun _ => c) a.x.val a.right.val row).map f
        = modifyBetween (fun _ => f c) a.x.val a.right.val (row.map f) :=
    map_modifyBetween f (g := fun _ => c) (fun _ => rfl) _ _
  exact map_modifyBetween _ hrow _ _ _

theorem mapColors_fillAll (f : Color → Color) (image : Image) (areas : List (Area × Color)) :
    (image.fillAll areas).mapColors f
      = (image.mapColors f).fillAll (areas.map fun ac => (ac.1, f ac.2)) := by
  induction areas generalizing image with
  | nil => rfl
  | cons ac areas ih => rw [fillAll_cons, ih, mapColors_fill, List.map_cons, fillAll_cons]

end Image

/-! ### Layouts -/

/-- The box in the colour that its fragment has in a palette. -/
def Box.recolored (p : Palette) (b : Box) : Box :=
  { b with color := p.color b.fragment.kind }

namespace Layout

/-- The layout with every box in the colour of a palette, and as it was in all other
    respects. -/
def recolored (p : Palette) (l : Layout) : Layout :=
  { l with boxes := l.boxes.map (Box.recolored p) }

theorem toList_boxes_recolored (p : Palette) (l : Layout) :
    (l.recolored p).boxes.toList = l.boxes.toList.map (Box.recolored p) :=
  Array.toList_map

theorem push_recolored (p : Palette) (l : Layout) (b : Box) :
    (l.push b).recolored p = (l.recolored p).push (b.recolored p) := by
  simp only [recolored, push, Array.map_push]
  rfl

theorem foldl_push_recolored (p : Palette) (l : Layout) (boxes : List Box) :
    (boxes.foldl push l).recolored p
      = (boxes.map (Box.recolored p)).foldl push (l.recolored p) := by
  induction boxes generalizing l with
  | nil => rfl
  | cons b boxes ih => rw [List.foldl_cons, ih, push_recolored, List.map_cons, List.foldl_cons]

/-- The palette decides about the colours in a layout and about nothing else. -/
theorem ofFragments_recolored (g : Geometry) (p q : Palette) (fs : List Fragment) :
    (ofFragments g p fs).recolored q = ofFragments g q fs := by
  have hempty : recolored q {} = {} := by
    rw [recolored, Array.map_empty]
  rw [ofFragments_eq, ofFragments_eq, ofBoxes, foldl_push_recolored, hempty, List.map_map]
  rfl

/-- A layout is painted in all colours or in none. -/
theorem addressable_recolored (p : Palette) (l : Layout) :
    (∀ b ∈ (l.recolored p).boxes.toList, b.Addressable) ↔
      ∀ b ∈ l.boxes.toList, b.Addressable := by
  rw [toList_boxes_recolored, List.forall_mem_map]
  exact Iff.rfl

theorem render_recolored_eq_overflow_iff (p q r : Palette) (l : Layout) :
    (l.recolored r).render q = .error .overflow ↔ l.render p = .error .overflow := by
  rw [render_eq_overflow_iff, render_eq_overflow_iff, toList_boxes_recolored]
  simp only [List.mem_map, exists_exists_and_eq_and]
  exact Iff.rfl

/-- If a change of colours turns one palette into another, it turns the picture in the
    one into the picture in the other. -/
theorem render_recolored {p q : Palette} {f : Color → Color} {l : Layout}
    (hbackground : f p.background = q.background)
    (hcolor : ∀ b ∈ l.boxes.toList, f b.color = q.color b.fragment.kind) :
    (l.recolored q).render q = (l.render p).map (Image.mapColors f) := by
  by_cases hall : ∀ b ∈ l.boxes.toList, b.Addressable
  · -- The same areas are painted in both pictures, each in the colour of its fragment.
    have hareas : l.boxes.toList.map (fun b => (b.painted, f b.color))
        = l.boxes.toList.map (fun b => (b.painted, (b.recolored q).color)) :=
      List.map_congr_left fun b hb => by rw [hcolor b hb, Box.recolored]
    rw [render_eq_ok _ q ((addressable_recolored q l).mpr hall), render_eq_ok _ p hall,
      Except.map, Image.mapColors_fillAll, Image.mapColors_blank, hbackground, List.map_map,
      toList_boxes_recolored, List.map_map]
    exact congrArg (fun areas => Except.ok (Image.fillAll _ areas)) hareas.symm
  · rw [render_eq_overflow _ q (mt (addressable_recolored q l).mp hall),
      render_eq_overflow _ p hall, Except.map]

/-- Every box of a layout has the colour of its fragment. -/
theorem color_of_mem_ofFragments (g : Geometry) (p : Palette) (fs : List Fragment) :
    ∀ b ∈ (ofFragments g p fs).boxes.toList, b.color = p.color b.fragment.kind := by
  rw [ofFragments_eq, toList_boxes_ofBoxes, List.forall_mem_map]
  exact fun s _ => rfl

end Layout

namespace Settings

/-- A palette changes colours only. The layouts of a text in two palettes agree in
    everything but the colours of their boxes, and one of them overflows if the other
    does. If a change of colours turns the one palette into the other, it turns the one
    picture into the other, pixel by pixel.

    All this holds of any palettes, and so of those that are made by overrides. There the
    colour of a kind is the last one that was given to it, whatever was overridden in
    between, and the first palette has the word where none was. A table in which every
    override writes the place of its kind holds the same colours. -/
theorem palette_changes_colors_only (g : Geometry) (v : Vocabulary) (text : List Char) :
    (∀ p q : Palette, ∃ l, layout ⟨g, p, v⟩ text = .ok l ∧
      layout ⟨g, q, v⟩ text = .ok (l.recolored q) ∧
      ((l.recolored q).render q = .error .overflow ↔ l.render p = .error .overflow) ∧
      ∀ f : Color → Color, f p.background = q.background → (∀ k, f (p.color k) = q.color k) →
        (l.recolored q).render q = (l.render p).map (Image.mapColors f)) ∧
    ∀ (start : Palette) (steps : List Palette.Override),
      (start.overrideAll steps).background
          = (steps.filterMap Palette.Override.background?).getLast?.getD start.background ∧
      ∀ k, (start.overrideAll steps).color k
            = (steps.filterMap (Palette.Override.colorOf? k)).getLast?.getD (start.color k) ∧
        (steps.foldl Palette.Override.write start.table)[k.index]?
          = some ((start.overrideAll steps).color k) := by
  refine ⟨fun p q => ?_, fun start steps => ⟨start.background_overrideAll steps, fun k => ?_⟩⟩
  · -- The fragments do not depend on the palette.
    obtain ⟨fs, hfs⟩ : ∃ fs, fragments ⟨g, p, v⟩ text = .ok fs := ⟨_, fragments_eq _ text⟩
    have hfs' : fragments ⟨g, q, v⟩ text = .ok fs := hfs
    refine ⟨_, layout_eq _ text hfs, ?_, Layout.render_recolored_eq_overflow_iff p q q _,
      fun f hbackground hcolor => Layout.render_recolored hbackground fun b hb => ?_⟩
    · rw [layout_eq _ text hfs', layoutOf, layoutOf, Layout.ofFragments_recolored]
    · rw [Layout.color_of_mem_ofFragments g p fs b hb, hcolor]
  · rw [← Palette.table_overrideAll, Palette.getElem?_table]
    exact ⟨start.color_overrideAll steps k, rfl⟩

end Settings

/-- The standard palette with black for white, and white for every other colour. -/
def Palette.inverted : Palette where
  color k := if standard.color k = .white then .black else .white
  background := .black

/-- The picture of a word and a delimiter, inverted. What was black is white in it. -/
theorem Settings.palette_changes_colors_only_inverted :
    ∃ l image other, layout { geometry := ⟨1, 2, 0⟩ } ['x', ';'] = .ok l ∧
      l.render .standard = .ok image ∧ (l.recolored .inverted).render .inverted = .ok other ∧
      other = image.mapColors (fun c => if c = .white then .black else .white) ∧
      image.pixel? 0 0 = some .black ∧ other.pixel? 0 0 = some .white := by
  obtain ⟨l, image, hlayout, himage, hpixel⟩ : ∃ l image,
      layout { geometry := ⟨1, 2, 0⟩ } ['x', ';'] = .ok l ∧ l.render .standard = .ok image ∧
        image.pixel? 0 0 = some .black := ⟨_, _, rfl, rfl, rfl⟩
  rcases (palette_changes_colors_only ⟨1, 2, 0⟩ .java ['x', ';']).1 .standard .inverted with
    ⟨m, hlayout', -, -, hrecolor⟩
  have hsame : m = l := Except.ok.inj (hlayout'.symm.trans hlayout)
  have hpicture := hrecolor (fun c => if c = .white then .black else .white) rfl fun _ => rfl
  rw [hsame, himage] at hpicture
  refine ⟨l, image, _, hlayout, himage, hpicture, rfl, hpixel, ?_⟩
  rw [Image.pixel?_mapColors, hpixel]
  rfl

end SourceTexture
