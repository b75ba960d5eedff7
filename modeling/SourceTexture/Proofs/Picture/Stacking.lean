import SourceTexture.Proofs.Fragment.Isolation
import SourceTexture.Proofs.Picture.Placement

/-!
# Stacked texts

A text put below another one is drawn below its picture.

Two texts with a line break between them make one text, and all three stages
could mix them up. The scanner could still be in the middle of something when
the line break arrives. It is not, unless that is a literal or a block comment:
anything else ends there, and the line break finds it just as the end of the
text would have, so the scanner hands out the same fragments and starts afresh
behind it. Condensing does not reach across, for a line break is not joined with
anything. And layout starts a new row, so all that the text above does to the
boxes below is to move them down by the rows it takes.

Places stop at the limit, and so does the distance. That does not spoil the
sum, because a spot counts its row without a limit and the place is clamped
only in the end.

## Main definitions

* `Mode.endsAtLineBreak`: Nothing that is begun in this mode goes on behind a
  line break.
* `Fragment.breaks`: How many line breaks there are.
* `Spot.moveDown`, `Box.moveDown`: A spot or a box further down.

## Theorems

* `Scanner.step_lineBreak`: A line break ends what may end there.
* `Fragment.scan_stacked`: Stacked texts are scanned by themselves.
* `Settings.fragments_stacked`: They are condensed by themselves.
* `Fragment.spots_append_cons`: Spots behind a line break are those of the rest,
  moved down.
* `Fragment.breaks_eq_count`: Fragments that keep lines apart break as many lines
  as their text.
* `Settings.boxes_layoutOf_append`: A line break moves the boxes behind it down.
* `Settings.boxes_stacked`: Stacked texts are laid out one below the other.
-/

namespace SourceTexture

/-- Whether a line break ends whatever a scanner is in the middle of. Literals
    and block comments go on behind it. -/
def Mode.endsAtLineBreak : Mode → Bool
  | code | slash | delimiters | lineComment => true
  | literal _ _ | blockComment | blockStar => false

/-- A line break that ends something leaves a scanner as good as new. What it
    ends is handed out as it would be at the end of the text. -/
theorem Scanner.step_lineBreak {s : Scanner} (h : s.mode.endsAtLineBreak = true) :
    s.step '\n' = (s.finish ++ [.lineBreak], {}) := by
  rcases s with ⟨mode, pending⟩
  cases mode with
  | code | slash | delimiters | lineComment => rfl
  | literal | blockComment | blockStar => exact Bool.noConfusion h

/-- Stacked texts are scanned as if each was alone. -/
theorem Fragment.scan_stacked {front back : List Char}
    (hmode : (Scanner.feed {} (Text.stripMark front)).2.mode.endsAtLineBreak = true)
    (hmark : back.head? ≠ some '\uFEFF') :
    scan (front ++ '\n' :: back) = scan front ++ .lineBreak :: scan back := by
  -- The line break is no mark, so only the mark in front of the whole is stripped.
  have hstrip := Text.stripMark_append_cons (c := '\n') (by decide) front back
  have hbreak := Scanner.step_lineBreak hmode
  rw [scan_eq_feed (front ++ '\n' :: back), hstrip, Scanner.feed_append, Scanner.feed_cons,
    Scanner.push_of_ne _ (by decide), hbreak, scan_eq_feed front, scan_eq_feed back,
    Text.stripMark_of_head?_ne hmark, Scanner.finish]
  simp only [List.append_assoc, List.cons_append, List.nil_append]

/-- Nothing is joined across the line break between stacked texts. -/
theorem Settings.fragments_stacked (s : Settings) {front back : List Char}
    {upper lower : List Fragment}
    (hscan : Fragment.scan (front ++ '\n' :: back)
      = Fragment.scan front ++ .lineBreak :: Fragment.scan back)
    (hupper : s.fragments front = .ok upper) (hlower : s.fragments back = .ok lower) :
    s.fragments (front ++ '\n' :: back) = .ok (upper ++ .lineBreak :: lower) := by
  have hbreak : s.vocabulary.resolve .lineBreak = .lineBreak :=
    s.vocabulary.resolve_of_isSettled rfl
  -- A line break is resolved to itself and joins nothing.
  have hatomic : ¬ Fragment.lineBreak.kind.mergeable = true := Bool.false_ne_true
  rw [fragments_eq, Except.ok.injEq] at hupper hlower
  rw [fragments_eq, hscan, List.map_append, List.map_cons, hbreak,
    Fragment.condensed_append_cons (List.cons_ne_nil '\n' []) hatomic, hupper, hlower]

/-! ### Rows -/

/-- The spot some rows further down. -/
def Spot.moveDown (rows : Nat) (s : Spot) : Spot :=
  { s with row := s.row + rows }

/-- The box moved down, to the limit if it has to be. -/
def Box.moveDown (distance : Extent) (b : Box) : Box :=
  { b with y := b.y + distance }

theorem Spot.box_moveDown (g : Geometry) (p : Palette) (rows : Nat) (s : Spot) :
    (s.moveDown rows).box g p
      = (s.box g p).moveDown (Extent.clamp (rows * (g.lineHeight.val + g.boxGap.val))) := by
  simp only [Spot.box, Spot.moveDown, Box.moveDown, Extent.clamp_add_clamp, Nat.add_mul]

namespace Fragment

/-- The number of line breaks among fragments. -/
def breaks (fs : List Fragment) : Nat :=
  fs.countP (·.kind = .lineFeed)

theorem breaks_lineFeed {f : Fragment} (h : f.kind = .lineFeed) (fs : List Fragment) :
    breaks (f :: fs) = breaks fs + 1 :=
  List.countP_cons_of_pos (decide_eq_true h)

theorem breaks_of_ne {f : Fragment} (h : f.kind ≠ .lineFeed) (fs : List Fragment) :
    breaks (f :: fs) = breaks fs :=
  List.countP_cons_of_neg (by rwa [decide_eq_true_eq])

/-- No spot lies below the last line break. -/
theorem row_le_of_mem_spots (fs : List Fragment) (row before column : Nat) :
    ∀ s ∈ spots row before column fs, s.row ≤ row + breaks fs := by
  induction fs generalizing row before column with
  | nil => exact fun s hs => absurd hs List.not_mem_nil
  | cons f fs ih =>
      intro s hs
      by_cases h : f.kind = .lineFeed
      · -- The rows behind a line break are counted from one further down, which is the break
        -- that is counted in front.
        rw [spots_lineFeed h] at hs
        have hrow := ih (row + 1) 0 0 s hs
        rw [breaks_lineFeed h]
        omega
      · rw [spots_of_ne h] at hs
        rw [breaks_of_ne h]
        rcases List.mem_cons.mp hs with hs | hs
        · rw [hs]
          exact Nat.le_add_right _ _
        · exact ih row (before + 1) _ s hs

/-- Where the first row is counted from does not matter but for the rows. -/
theorem spots_add (rows row before column : Nat) (fs : List Fragment) :
    spots (row + rows) before column fs
      = (spots row before column fs).map (Spot.moveDown rows) := by
  induction fs generalizing row before column with
  | nil => rfl
  | cons f fs ih =>
      by_cases h : f.kind = .lineFeed
      · rw [spots_lineFeed h, spots_lineFeed h, Nat.add_right_comm, ih]
      · rw [spots_of_ne h, spots_of_ne h, List.map_cons, ih]
        rfl

/-- A line break starts a row, and nothing before it matters to the spots behind
    it but the number of rows. -/
theorem spots_append_cons {f : Fragment} (hf : f.kind = .lineFeed) (row before column : Nat)
    (front back : List Fragment) :
    spots row before column (front ++ f :: back)
      = spots row before column front
        ++ (spots row 0 0 back).map (Spot.moveDown (breaks front + 1)) := by
  -- Moving down is counting rows from further down, so that is what is shown.
  rw [← spots_add]
  induction front generalizing row before column with
  | nil => rw [List.nil_append, spots_lineFeed hf]; rfl
  | cons e front ih =>
      rw [List.cons_append]
      by_cases h : e.kind = .lineFeed
      · rw [spots_lineFeed h, spots_lineFeed h, breaks_lineFeed h, ih]
        congr 2
        omega
      · rw [spots_of_ne h, spots_of_ne h, breaks_of_ne h, ih, List.cons_append]

/-- Fragments that keep lines apart break as many lines as their text. -/
theorem breaks_eq_count {fs : List Fragment} (h : ∀ f ∈ fs, f.KeepsLines) :
    breaks fs = (fs.flatMap (·.content)).count '\n' := by
  induction fs with
  | nil => rfl
  | cons f fs ih =>
      have hf : f.KeepsLines := h f List.mem_cons_self
      have hrest : breaks fs = (fs.flatMap (·.content)).count '\n' :=
        ih fun g hg => h g (List.mem_cons_of_mem f hg)
      rw [List.flatMap_cons, List.count_append, ← hrest, Nat.add_comm]
      -- A break is one line feed, and no other fragment has any.
      by_cases hkind : f.kind = .lineFeed
      · rw [breaks_lineFeed hkind, hf.content_eq hkind]
        rfl
      · rw [breaks_of_ne hkind, List.count_eq_zero.mpr (hf.not_mem hkind), Nat.add_zero]

end Fragment

namespace Text

/-- The mark is no line break. -/
theorem count_lineBreak_stripMark (text : List Char) :
    (stripMark text).count '\n' = text.count '\n' := by
  cases text with
  | nil => rfl
  | cons c text =>
      rw [stripMark]
      split_ifs with h
      · rw [List.count_cons_of_ne (by rw [h]; decide)]
      · rfl

/-- A text has as many line breaks as its normal text. -/
theorem count_lineBreak_normalize (text : List Char) :
    (normalize text).count '\n' = text.count '\n' := by
  rw [normalize, ← count_lineBreak_stripMark text]
  induction stripMark text with
  | nil => rfl
  | cons c text ih =>
      by_cases hc : c = '\r'
      · rw [List.filter_cons_of_neg (by rw [hc]; decide), ih,
          List.count_cons_of_ne (by rw [hc]; decide)]
      · rw [List.filter_cons_of_pos (by rwa [decide_eq_true_eq]), List.flatMap_cons,
          List.count_append, ih, ← List.singleton_append, List.count_append]
        congr 1
        -- A tab and the blanks it is worth are equally free of line breaks.
        by_cases htab : c = '\t'
        · rw [htab]
          rfl
        · rw [expand_of_ne htab]

end Text

namespace Settings

theorem boxes_layoutOf (s : Settings) (fs : List Fragment) :
    (s.layoutOf fs).boxes.toList
      = (Fragment.spots 0 0 0 fs).map (Spot.box s.geometry s.palette) := by
  rw [layoutOf, Layout.ofFragments_eq, Layout.toList_boxes_ofBoxes]

/-- Fragments behind a line break get the boxes they would get alone, further
    down. -/
theorem boxes_layoutOf_append (s : Settings) (upper lower : List Fragment) :
    (s.layoutOf (upper ++ .lineBreak :: lower)).boxes.toList
      = (s.layoutOf upper).boxes.toList ++ (s.layoutOf lower).boxes.toList.map (Box.moveDown
        (Extent.clamp ((Fragment.breaks upper + 1)
          * (s.geometry.lineHeight.val + s.geometry.boxGap.val)))) := by
  have hmove := Spot.box_moveDown s.geometry s.palette (Fragment.breaks upper + 1)
  rw [boxes_layoutOf, boxes_layoutOf, boxes_layoutOf, Fragment.spots_append_cons rfl,
    List.map_append, List.map_map, List.map_map]
  congr 2
  exact funext hmove

/-- Texts may be stacked. Let two texts have a line break between them, the
    scanner be outside of literals and block comments when it arrives there, and
    the lower text not begin with a mark. Then they are scanned one after the
    other, and the boxes of the whole are those of the upper text followed by
    those of the lower one, which are moved down by the rows of the upper text
    and otherwise as they were. -/
theorem boxes_stacked {front back : List Char}
    (hmode : (Scanner.feed {} (Text.stripMark front)).2.mode.endsAtLineBreak = true)
    (hmark : back.head? ≠ some '\uFEFF') :
    Fragment.scan (front ++ '\n' :: back)
      = Fragment.scan front ++ .lineBreak :: Fragment.scan back ∧
    ∀ s : Settings, ∃ upper lower whole, s.layout front = .ok upper ∧ s.layout back = .ok lower ∧
      s.layout (front ++ '\n' :: back) = .ok whole ∧
      whole.boxes.toList = upper.boxes.toList ++ lower.boxes.toList.map (Box.moveDown
        (Extent.clamp ((front.count '\n' + 1)
          * (s.geometry.lineHeight.val + s.geometry.boxGap.val)))) := by
  have hscan := Fragment.scan_stacked hmode hmark
  refine ⟨hscan, fun s => ?_⟩
  obtain ⟨upper, hupper⟩ : ∃ fs, s.fragments front = .ok fs := ⟨_, s.fragments_eq front⟩
  obtain ⟨lower, hlower⟩ : ∃ fs, s.fragments back = .ok fs := ⟨_, s.fragments_eq back⟩
  have hwhole := s.fragments_stacked hscan hupper hlower
  -- The fragments of the upper text break its lines, so they tell its rows.
  have hrows : Fragment.breaks upper = front.count '\n' := by
    rw [Fragment.breaks_eq_count (s.keepsLines_of_mem_fragments front hupper),
      s.flatMap_content_fragments front hupper, Text.count_lineBreak_normalize]
  refine ⟨_, _, _, s.layout_eq front hupper, s.layout_eq back hlower, s.layout_eq _ hwhole, ?_⟩
  rw [s.boxes_layoutOf_append, hrows]

/-- A line comment above the opening of a block comment, in rows so high that the
    second one begins at the limit. -/
theorem boxes_stacked_comment :
    ∃ upper lower whole : Layout,
      layout { geometry := { lineHeight := Extent.clamp Extent.limit } } ['/', '/'] = .ok upper ∧
      layout { geometry := { lineHeight := Extent.clamp Extent.limit } } ['/', '*'] = .ok lower ∧
      layout { geometry := { lineHeight := Extent.clamp Extent.limit } } ['/', '/', '\n', '/', '*']
        = .ok whole ∧
      whole.boxes.toList = upper.boxes.toList
        ++ lower.boxes.toList.map (Box.moveDown (Extent.clamp Extent.limit)) :=
  (@boxes_stacked ['/', '/'] ['/', '*'] (by decide) (by decide)).2
    { geometry := { lineHeight := Extent.clamp Extent.limit } }

end Settings

end SourceTexture
