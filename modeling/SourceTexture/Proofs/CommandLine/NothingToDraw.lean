import SourceTexture.Proofs.CommandLine.Effects
import SourceTexture.Proofs.Picture.Cells
import SourceTexture.Proofs.Picture.Uppermost

/-!
# Nothing to draw

Which texts have no picture because there is nothing in them but line breaks.

A picture is refused if its canvas lacks extent, and the refusal looks at two numbers
only. What the numbers say about the text is known from the other end. A line break
makes no fragment but a line break, and these get no box. Every other character,
wherever it stands and whatever the scanner is in the middle of, ends up in a fragment
that is no line break. Such a fragment holds text, and text has a width, so its box ends
behind the origin in both directions. It does so even where the limit leaves nothing of
the box itself. The canvas reaches as far, so it has an extent in both directions if
there is a box, and in neither if there is none.

Not all characters count. A mark in front of the text says how the file was encoded,
and carriage returns never show, so a file may hold bytes and have no picture all the
same. A second mark is text like any other, and so are blanks, whatever their colour.

The refusal comes before anything is written. Whatever stands at the place of the
picture stays there.

## Main definitions

* `Text.OnlyBreaks`: A text of nothing but line breaks.

## Theorems

* `Text.onlyBreaks_iff`: Its normal text consists of line breaks.
* `Fragment.all_lineFeed_iff`: So do the fragments of such a text, and of no other.
* `Layout.size_eq_zero_iff`: A canvas lacks extent exactly if there is no box.
* `Layout.picture_eq_emptyCanvas_iff`: A picture is refused for its size alone.
* `renderFile_refuses_iff`: A file is refused with its picture, and nothing is written.
* `Settings.nothing_to_draw_iff`: The texts without a picture are those of line breaks.
-/

namespace SourceTexture

/-! ### Texts and fragments -/

namespace Text

/-- Whether a text is nothing but line breaks: behind a mark in front there are only
    line feeds and carriage returns. -/
def OnlyBreaks (text : List Char) : Prop :=
  ∀ c ∈ stripMark text, c = '\n' ∨ c = '\r'

instance (text : List Char) : Decidable (OnlyBreaks text) :=
  List.decidableBAll _ (stripMark text)

/-- Carriage returns do not get into the normal text, and everything else that does
    leaves a trace there. -/
theorem onlyBreaks_iff (text : List Char) :
    OnlyBreaks text ↔ ∀ c ∈ normalize text, c = '\n' := by
  constructor
  · intro h d hd
    rcases List.mem_flatMap.mp hd with ⟨c, hc, hd⟩
    rcases List.mem_filter.mp hc with ⟨hc, hreturn⟩
    rcases h c hc with hfeed | hreturn'
    · rw [hfeed] at hd
      exact List.mem_singleton.mp hd
    · exact absurd hreturn' (of_decide_eq_true hreturn)
  · intro h c hc
    by_cases hreturn : c = '\r'
    · exact Or.inr hreturn
    · -- Something of the character is left in the normal text, and that is no blank.
      rcases List.exists_mem_of_ne_nil _ (expand_ne_nil c) with ⟨d, hd⟩
      have hfeed : d = '\n' := h d (List.mem_flatMap.mpr
        ⟨c, List.mem_filter.mpr ⟨hc, decide_eq_true hreturn⟩, hd⟩)
      rcases eq_of_mem_expand hd with hblank | ⟨hsame, -⟩
      · exact absurd (hfeed.symm.trans hblank) (by decide)
      · exact Or.inl (hsame.symm.trans hfeed)

end Text

/-- Fragments that hold text, and line breaks only as fragments of their own, are all
    line breaks if their text is. -/
theorem Fragment.all_lineFeed_iff {fs : List Fragment} (hkeeps : ∀ f ∈ fs, f.KeepsLines)
    (htext : ∀ f ∈ fs, f.content ≠ []) :
    (∀ f ∈ fs, f.kind = .lineFeed) ↔ ∀ c ∈ fs.flatMap (·.content), c = '\n' := by
  constructor
  · intro h c hc
    rcases List.mem_flatMap.mp hc with ⟨f, hf, hc⟩
    rw [(hkeeps f hf).content_eq (h f hf)] at hc
    exact List.mem_singleton.mp hc
  · intro h f hf
    -- Any other fragment would have a character to show, which cannot be a line break.
    by_contra hkind
    rcases List.exists_mem_of_ne_nil _ (htext f hf) with ⟨c, hc⟩
    have hfeed : c = '\n' := h c (List.mem_flatMap.mpr ⟨f, hf, hc⟩)
    rw [hfeed] at hc
    exact (hkeeps f hf).not_mem hkind hc

/-- All fragments of a text are line breaks exactly if the text is nothing else. -/
theorem Settings.all_lineFeed_fragments_iff (s : Settings) {text : List Char}
    {fs : List Fragment} (h : s.fragments text = .ok fs) :
    (∀ f ∈ fs, f.kind = .lineFeed) ↔ Text.OnlyBreaks text := by
  rw [Fragment.all_lineFeed_iff (s.keepsLines_of_mem_fragments text h)
    (s.content_ne_nil_of_mem_fragments text h), s.flatMap_content_fragments text h,
    Text.onlyBreaks_iff]

/-! ### Sizes and pictures -/

/-- The box of a fragment that holds text ends behind the origin in both directions,
    also where the limit has pushed it against the far edge. -/
theorem Spot.edges_pos {g : Geometry} (hwidth : 1 ≤ g.charWidth.val)
    (hheight : 1 ≤ g.lineHeight.val) (p : Palette) {s : Spot}
    (htext : s.fragment.content ≠ []) :
    0 < (s.box g p).right.val ∧ 0 < (s.box g p).bottom.val := by
  have hcharacters : 0 < s.fragment.content.length * g.charWidth.val :=
    Nat.mul_pos (List.length_pos_iff.mpr htext) hwidth
  have hlimit : 0 < Extent.limit := by decide
  -- Clamping at a limit that is not zero leaves what is positive positive.
  simp only [Box.right, Box.bottom, box, Extent.val_add, Extent.val_clamp]
  omega

namespace Layout

/-- A layout without boxes has no size. -/
theorem size_eq_zero_of_boxes_eq_nil {g : Geometry} {p : Palette} {fs : List Fragment}
    (h : (ofFragments g p fs).boxes.toList = []) :
    (ofFragments g p fs).width = 0 ∧ (ofFragments g p fs).height = 0 := by
  rw [ofFragments_eq, toList_boxes_ofBoxes] at h
  rw [ofFragments_eq, h]
  exact ⟨rfl, rfl⟩

theorem boxes_ofFragments_eq_nil_iff (g : Geometry) (p : Palette) (fs : List Fragment) :
    (ofFragments g p fs).boxes.toList = [] ↔ ∀ f ∈ fs, f.kind = .lineFeed := by
  rw [ofFragments_eq, toList_boxes_ofBoxes, List.map_eq_nil_iff, ← List.length_eq_zero_iff,
    Fragment.length_spots, List.countP_eq_zero]
  simp only [decide_eq_true_eq, Decidable.not_not]

/-- Where characters and lines have an extent, the canvas of fragments that hold text
    lacks it in some direction exactly if there is no box. -/
theorem size_eq_zero_iff {g : Geometry} (hwidth : 1 ≤ g.charWidth.val)
    (hheight : 1 ≤ g.lineHeight.val) (p : Palette) {fs : List Fragment}
    (htext : ∀ f ∈ fs, f.content ≠ []) :
    (ofFragments g p fs).width = 0 ∨ (ofFragments g p fs).height = 0 ↔
      (ofFragments g p fs).boxes.toList = [] := by
  constructor
  · intro hsize
    by_contra hboxes
    rw [ofFragments_eq, toList_boxes_ofBoxes, List.map_eq_nil_iff] at hboxes
    rcases List.exists_mem_of_ne_nil _ hboxes with ⟨s, hs⟩
    have hmem : s.fragment ∈ fs := Fragment.fragment_mem_of_mem_spots fs 0 0 0 s hs
    -- The canvas reaches as far as this box does.
    have hpos := Spot.edges_pos hwidth hheight p (htext _ hmem)
    have hedges := edges_le_size (List.mem_map_of_mem (f := Spot.box g p) hs)
    rw [ofFragments_eq, Extent.eq_zero_iff, Extent.eq_zero_iff] at hsize
    omega
  · exact fun hboxes => Or.inl (size_eq_zero_of_boxes_eq_nil hboxes).1

/-- A picture is refused as empty exactly if its canvas lacks extent in some direction,
    and the refusal tells the size of the canvas. -/
theorem picture_eq_emptyCanvas_iff (l : Layout) (p : Palette) (w h : Extent) :
    l.picture p = .error (.emptyCanvas w h) ↔
      (l.width = 0 ∨ l.height = 0) ∧ w = l.width ∧ h = l.height := by
  rw [picture]
  by_cases hsize : l.width = 0 ∨ l.height = 0
  · rw [if_pos hsize, Except.error.injEq, RenderError.emptyCanvas.injEq, and_iff_right hsize,
      eq_comm, @eq_comm _ l.height]
  · -- Rendering has other reasons to fail.
    rw [if_neg hsize]
    refine ⟨fun hrender => ?_, fun hboth => absurd hboth.1 hsize⟩
    rcases l.render_cases p with hoverflow | ⟨image, hok⟩
    · rw [hoverflow] at hrender
      cases hrender
    · rw [hok] at hrender
      cases hrender

end Layout

/-! ### Files -/

/-- A file that can be read is refused if its picture is, for the same reason, and then
    the disk is left as it was. -/
theorem renderFile_refuses_iff (t : Threshold) (settings : Settings) (input output : String)
    {s : Session} {bytes : List UInt8} (hread : s.disk.read input.toList = .ok bytes)
    {fs : List Fragment} (hfs : settings.fragments (Utf8.decode bytes) = .ok fs) :
    ∃ result after,
      (renderFile t settings input output : SessionM (Except Failure Unit)).run s
        = (result, after) ∧
      ∀ e, (result = .error (.render e) ↔
          (settings.layoutOf fs).picture settings.palette = .error e) ∧
        (result = .error (.render e) → after.disk = s.disk) := by
  rcases renderFile_run_of_read t settings input output hread with ⟨notes, hrun⟩
  rw [hrun, hfs]
  simp only
  cases (settings.layoutOf fs).picture settings.palette with
  | error e =>
      refine ⟨_, _, rfl, fun e' => ⟨?_, fun _ => rfl⟩⟩
      rw [Except.error.injEq, Failure.render.injEq, Except.error.injEq]
  | ok image =>
      -- There is a picture, so the file fails for another reason if it does.
      simp only
      cases s.disk.write output.toList image with
      | error e => exact ⟨_, _, rfl, fun e' => ⟨⟨nofun, nofun⟩, nofun⟩⟩
      | ok after => exact ⟨_, _, rfl, fun e' => ⟨⟨nofun, nofun⟩, nofun⟩⟩

namespace Settings

/-- The texts with nothing to draw are those of line breaks. Where characters and lines
    have an extent, a text has no box exactly if there are only line feeds and carriage
    returns in it, a mark in front apart. These are the texts whose picture is refused
    as empty, in any palette, and the size they are refused with is zero in both
    directions. A file that holds such a text fails with this refusal and leaves the
    disk as it was, and no other file fails with it. -/
theorem nothing_to_draw_iff (s : Settings) (hwidth : 1 ≤ s.geometry.charWidth.val)
    (hheight : 1 ≤ s.geometry.lineHeight.val) (text : List Char) :
    ∃ l, s.layout text = .ok l ∧ (l.boxes.toList = [] ↔ Text.OnlyBreaks text) ∧
      (∀ p w h, l.picture p = .error (.emptyCanvas w h) ↔
        Text.OnlyBreaks text ∧ w = 0 ∧ h = 0) ∧
      ∀ (t : Threshold) (input output : String) (session : Session) (bytes : List UInt8),
        session.disk.read input.toList = .ok bytes → Utf8.decode bytes = text →
        ∃ result after,
          (renderFile t s input output : SessionM (Except Failure Unit)).run session
            = (result, after) ∧
          (∀ w h, result = .error (.render (.emptyCanvas w h)) ↔
            Text.OnlyBreaks text ∧ w = 0 ∧ h = 0) ∧
          (Text.OnlyBreaks text → after.disk = session.disk) := by
  obtain ⟨fs, hfs⟩ : ∃ fs, s.fragments text = .ok fs := ⟨_, s.fragments_eq text⟩
  have hboxes : (s.layoutOf fs).boxes.toList = [] ↔ Text.OnlyBreaks text := by
    rw [← s.all_lineFeed_fragments_iff hfs]
    exact Layout.boxes_ofFragments_eq_nil_iff s.geometry s.palette fs
  have hpicture : ∀ p w h, (s.layoutOf fs).picture p = .error (.emptyCanvas w h) ↔
      Text.OnlyBreaks text ∧ w = 0 ∧ h = 0 := by
    intro p w h
    have hsize := Layout.size_eq_zero_iff hwidth hheight s.palette
      (s.content_ne_nil_of_mem_fragments text hfs)
    rw [Layout.picture_eq_emptyCanvas_iff, layoutOf, hsize, ← layoutOf, hboxes]
    refine and_congr_right fun honly => ?_
    have hzero := Layout.size_eq_zero_of_boxes_eq_nil (hboxes.mpr honly)
    rw [layoutOf, hzero.1, hzero.2]
  refine ⟨_, s.layout_eq text hfs, hboxes, hpicture,
    fun t input output session bytes hread htext => ?_⟩
  -- The file holds the text in some encoding, and all that counts is how it is decoded.
  rw [← htext] at hfs
  rcases renderFile_refuses_iff t s input output hread hfs with ⟨result, after, hrun, hrefuses⟩
  have hresult : ∀ w h, result = .error (.render (.emptyCanvas w h)) ↔
      Text.OnlyBreaks text ∧ w = 0 ∧ h = 0 :=
    fun w h => (hrefuses _).1.trans (hpicture s.palette w h)
  exact ⟨result, after, hrun, hresult, fun honly =>
    (hrefuses _).2 ((hresult 0 0).mpr ⟨honly, rfl, rfl⟩)⟩

end Settings

/-- A source with a mark and two line breaks, one of them with a return, and a file
    where its picture would go. -/
def Session.unseen : Session where
  disk :=
    { nodes := [(["A.java".toList], .file [0xEF, 0xBB, 0xBF, 13, 10, 10]),
        (["A.java.png".toList], .file [1])] }

/-- The source is refused and the file next to it stays. A text of two marks has a box,
    because only the first of them is dropped. -/
theorem Settings.nothing_to_draw_iff_marks :
    (∃ result after, (renderFile none { geometry := ⟨3, 5, Extent.clamp Extent.limit⟩ }
          "A.java" "A.java.png" : SessionM (Except Failure Unit)).run .unseen
        = (result, after) ∧
      result = .error (.render (.emptyCanvas 0 0)) ∧ after.disk = Session.unseen.disk) ∧
    ∃ l, layout { geometry := ⟨3, 5, Extent.clamp Extent.limit⟩ } ['\uFEFF', '\uFEFF'] = .ok l ∧
      l.boxes.toList ≠ [] := by
  have honly : Text.OnlyBreaks ['\uFEFF', '\r', '\n', '\n'] := by decide
  have hmark : ¬ Text.OnlyBreaks ['\uFEFF', '\uFEFF'] := by decide
  constructor
  · rcases nothing_to_draw_iff { geometry := ⟨3, 5, Extent.clamp Extent.limit⟩ } (by decide)
      (by decide) ['\uFEFF', '\r', '\n', '\n'] with ⟨-, -, -, -, hfile⟩
    rcases hfile none "A.java" "A.java.png" .unseen _ rfl rfl with
      ⟨result, after, hrun, hrefused, hdisk⟩
    exact ⟨result, after, hrun, (hrefused 0 0).mpr ⟨honly, rfl, rfl⟩, hdisk honly⟩
  · rcases nothing_to_draw_iff { geometry := ⟨3, 5, Extent.clamp Extent.limit⟩ } (by decide)
      (by decide) ['\uFEFF', '\uFEFF'] with ⟨l, hlayout, hboxes, -, -⟩
    exact ⟨l, hlayout, fun hnone => hmark (hboxes.mp hnone)⟩

end SourceTexture
