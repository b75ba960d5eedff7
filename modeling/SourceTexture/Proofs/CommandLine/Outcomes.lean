import SourceTexture.Proofs.CommandLine.Effects
import SourceTexture.Proofs.CommandLine.Frame
import SourceTexture.Proofs.Fragment.Conservation
import SourceTexture.Proofs.Picture.SamePicture
import SourceTexture.Proofs.Picture.Stacking
import Mathlib.Algebra.Group.Nat.Defs

/-!
# What becomes of a file

The few things that can happen to a file, whatever is to be done with it.

A file that is dumped is read and printed, or it cannot be read. A file that is to be
rendered is passed over if it is not a source by its name, and it fails if it cannot
be read, if it has no pixels, or if its picture cannot be put where it belongs. In
these cases the disk stays as it was. Otherwise the picture is drawn, to the output
path if there is one, and if not next to the source and under its name with an
extension more.

One thing more could go wrong. Where the lower half of a box begins past the limit
there is no picture. A line is four pixels high, so that takes more lines than a
file of any ordinary size has, and files with so many are left out here.

## Main definitions

* `Disk.FewLines`: No file has so many lines that its picture is not addressable.
* `Disk.Handled`: What becomes of a file.
* `Disk.Result`: What becomes of a file that is to be rendered next to its source.

## Theorems

* `Settings.render_of_few_lines`: The picture of a text with few lines exists.
* `Disk.draw_eq_ok_iff`: When a file is drawn.
* `Disk.visit_cases`: A file is drawn, or nothing is written.
* `Disk.handled_pass`, `Disk.Handled.pass_eq`: What becomes of a file is one of the six,
  and which one is settled.
* `Disk.result_visit`: For a file that is to be rendered it is one of five.
-/

namespace SourceTexture

namespace Settings

/-- Where a text has few lines the paint of all its boxes begins within the limit, so
    there is a picture. -/
theorem render_of_few_lines {text : List Char} {l : Layout} (hlayout : layout {} text = .ok l)
    (hfew : text.count '\n' < 2 ^ 30) : ∃ image, l.render .standard = .ok image := by
  have hfs := fragments_eq {} text
  rw [layout_eq {} text hfs, Except.ok.injEq] at hlayout
  refine ⟨_, l.render_eq_ok .standard fun b hb => ?_⟩
  rw [← hlayout, boxes_layoutOf] at hb
  rcases List.mem_map.mp hb with ⟨s, hs, hbox⟩
  have hrow := Fragment.row_le_of_mem_spots _ 0 0 0 s hs
  rw [Fragment.breaks_eq_count (keepsLines_of_mem_fragments {} text hfs),
    flatMap_content_fragments {} text hfs, Text.count_lineBreak_normalize] at hrow
  -- Rows are four pixels high, and the paint begins two pixels below their edge.
  have hy : b.y.val = min (s.row * 4) Extent.limit := by
    rw [← hbox]
    rfl
  have hheight : b.height.val = 4 := by
    rw [← hbox]
    rfl
  intro _
  rw [hy, hheight]
  unfold Extent.limit
  omega

end Settings

namespace Disk

/-- Whether the text of every file on a disk has fewer than `2 ^ 30` line breaks. -/
def FewLines (d : Disk) : Prop :=
  ∀ place node bytes, d.node? place = some node → node.bytes? = some bytes →
    (Utf8.decode bytes).count '\n' < 2 ^ 30

/-- Whether files have few lines can be seen by looking at everything that is stored. -/
theorem FewLines.of_nodes {d : Disk}
    (h : ∀ entry ∈ d.nodes, ∀ bytes ∈ entry.2.bytes?, (Utf8.decode bytes).count '\n' < 2 ^ 30) :
    d.FewLines := by
  intro place node bytes hnode hbytes
  unfold node? at hnode
  split at hnode
  · rw [← Option.some.inj hnode] at hbytes
    exact nomatch hbytes
  · -- A place other than the root holds what is stored for it.
    rcases List.lookup_eq_some_iff.mp hnode with ⟨front, back, hnodes, -⟩
    refine h (place, node) ?_ bytes hbytes
    rw [hnodes]
    exact List.mem_append_cons_self

/-- What becomes of a file: whether work on it succeeds, and what that leaves. -/
inductive Handled (i : Invocation) (d : Disk) (input : String) : Bool → Trail → Prop where
  /-- The fragments are printed. -/
  | dumped (command : i.command = .dump) {bytes : List UInt8} {fragments : List Fragment}
      (read : d.read input.toList = .ok bytes)
      (reading : Settings.fragments {} (Utf8.decode bytes) = .ok fragments) :
      Handled i d input true ⟨d, dumpLines input fragments⟩
  /-- A file that is no source by its name is not rendered, but passed over. -/
  | skipped (command : i.command = .render) (name : isJavaSource input = false) :
      Handled i d input true { disk := d }
  /-- There is nothing to be read. -/
  | unreadable (looked : i.command = .render → isJavaSource input = true) {e : SystemError}
      (read : d.read input.toList = .error e) : Handled i d input false { disk := d }
  /-- There are no pixels. -/
  | blank (command : i.command = .render) (name : isJavaSource input = true)
      {bytes : List UInt8} {l : Layout} (read : d.read input.toList = .ok bytes)
      (layout : Settings.layoutOfBytes {} bytes = .ok l) (size : l.width = 0 ∨ l.height = 0) :
      Handled i d input false { disk := d }
  /-- The picture cannot be put where it belongs. -/
  | refused (command : i.command = .render) (name : isJavaSource input = true)
      {bytes : List UInt8} {l : Layout} {image : Image} (read : d.read input.toList = .ok bytes)
      (layout : Settings.layoutOfBytes {} bytes = .ok l) (size : ¬ (l.width = 0 ∨ l.height = 0))
      (picture : l.render .standard = .ok image) {e : SystemError}
      (write : d.write (i.output.getD (input ++ ".png")).toList image = .error e) :
      Handled i d input false { disk := d }
  /-- The picture is drawn. -/
  | drawn (command : i.command = .render) (name : isJavaSource input = true)
      {bytes : List UInt8} {l : Layout} {image : Image} (read : d.read input.toList = .ok bytes)
      (layout : Settings.layoutOfBytes {} bytes = .ok l) (size : ¬ (l.width = 0 ∨ l.height = 0))
      (picture : l.render .standard = .ok image) {after : Disk}
      (write : d.write (i.output.getD (input ++ ".png")).toList image = .ok after) :
      Handled i d input true { disk := after }

/-- What becomes of a file that is to be rendered: how the run ends if it is the only
    file, and the disk that is left. -/
inductive Result (d : Disk) (input : String) : Exit → Disk → Prop where
  /-- A file that is no source by its name is passed over. -/
  | skipped (name : isJavaSource input = false) : Result d input .success d
  /-- There is nothing to be read. -/
  | unreadable (name : isJavaSource input = true) {e : SystemError}
      (read : d.read input.toList = .error e) : Result d input .failure d
  /-- There are no pixels. -/
  | blank (name : isJavaSource input = true) {bytes : List UInt8} {l : Layout}
      (read : d.read input.toList = .ok bytes)
      (layout : Settings.layout {} (Utf8.decode bytes) = .ok l)
      (size : l.width = 0 ∨ l.height = 0) : Result d input .failure d
  /-- The picture cannot be put where it belongs. -/
  | refused (name : isJavaSource input = true) {bytes : List UInt8} {l : Layout} {image : Image}
      (read : d.read input.toList = .ok bytes)
      (layout : Settings.layout {} (Utf8.decode bytes) = .ok l)
      (size : ¬ (l.width = 0 ∨ l.height = 0)) (picture : l.render .standard = .ok image)
      {e : SystemError} (write : d.write (input ++ ".png").toList image = .error e) :
      Result d input .failure d
  /-- The picture is drawn. -/
  | drawn (name : isJavaSource input = true) {bytes : List UInt8} {l : Layout} {image : Image}
      (read : d.read input.toList = .ok bytes)
      (layout : Settings.layout {} (Utf8.decode bytes) = .ok l)
      (size : ¬ (l.width = 0 ∨ l.height = 0)) (picture : l.render .standard = .ok image)
      {after : Disk} (write : d.write (input ++ ".png").toList image = .ok after) :
      Result d input .success after

variable (d : Disk)

/-- A layout is drawn if there is a picture of it and this can be written. -/
theorem drawLayout_eq_ok_iff (l : Layout) (output : String) (after : Disk) :
    d.drawLayout l output = .ok after ↔
      ∃ image, l.picture .standard = .ok image ∧ d.write output.toList image = .ok after := by
  unfold drawLayout
  cases l.picture .standard with
  | error e => exact ⟨nofun, fun ⟨_, hpicture, _⟩ => nomatch hpicture⟩
  | ok image =>
      -- There is only one picture, so nothing but the writing is left.
      simp only [Except.ok.injEq, exists_eq_left']
      cases d.write output.toList image with
      | error e => simp only [reduceCtorEq]
      | ok after' => simp only [Except.ok.injEq]

/-- A text that was read has a layout, and what is left is to draw that. -/
theorem draw_of_read {input : String} (output : String) {bytes : List UInt8}
    (hread : d.read input.toList = .ok bytes) :
    ∃ l, Settings.layoutOfBytes {} bytes = .ok l ∧ d.draw input output = d.drawLayout l output := by
  have hfragments := Settings.fragments_eq {} (Utf8.decode bytes)
  refine ⟨_, Settings.layout_eq {} _ hfragments, ?_⟩
  unfold draw
  simp only [hread, hfragments]

/-- A file is drawn if it can be read, has a picture, and this can be written. -/
theorem draw_eq_ok_iff (input output : String) (after : Disk) :
    d.draw input output = .ok after ↔ ∃ bytes l image, d.read input.toList = .ok bytes ∧
      Settings.layoutOfBytes {} bytes = .ok l ∧ l.picture .standard = .ok image ∧
      d.write output.toList image = .ok after := by
  constructor
  · intro h
    cases hread : d.read input.toList with
    | error e =>
        unfold draw at h
        rw [hread] at h
        exact nomatch h
    | ok bytes =>
        rcases d.draw_of_read output hread with ⟨l, hlayout, hdraw⟩
        rw [hdraw, drawLayout_eq_ok_iff] at h
        rcases h with ⟨image, hpicture, hwrite⟩
        exact ⟨bytes, l, image, rfl, hlayout, hpicture, hwrite⟩
  · rintro ⟨bytes, l, image, hread, hlayout, hpicture, hwrite⟩
    rcases d.draw_of_read output hread with ⟨l', hlayout', hdraw⟩
    -- A file has only one layout.
    rw [hlayout, Except.ok.injEq] at hlayout'
    rw [hdraw, ← hlayout', drawLayout_eq_ok_iff]
    exact ⟨image, hpicture, hwrite⟩

/-- A file is drawn, or nothing is written. In the second case it counts as a failure
    unless it is no source by its name. -/
theorem visit_cases (input : String) :
    (∃ place image, d.Draws input place image ∧
        d.visit input = (true, d.put place (.picture image))) ∨
      (∀ place image, ¬ d.Draws input place image) ∧
        d.visit input = (!isJavaSource input, d) := by
  unfold visit
  by_cases hjava : isJavaSource input = true
  · simp only [if_pos hjava]
    cases hdraw : d.draw input (defaultOutput input) with
    | ok after =>
        rcases (d.draw_eq_ok_iff _ _ after).mp hdraw with
          ⟨bytes, l, image, hread, hlayout, hpicture, hwrite⟩
        rcases (d.write_eq_ok_iff _ image after).mp hwrite with ⟨place, hleads, hvacant, hafter⟩
        exact Or.inl ⟨place, image, ⟨hjava, ⟨bytes, l, hread, hlayout, hpicture⟩, hleads, hvacant⟩,
          by rw [hafter]⟩
    | error e =>
        -- A file that draws something would have been drawn.
        refine Or.inr ⟨fun place image hdraws => ?_, by rw [hjava, Bool.not_true]⟩
        rcases hdraws.source with ⟨bytes, l, hread, hlayout, hpicture⟩
        have hwrite := (d.write_eq_ok_iff _ image _).mpr ⟨place, hdraws.leads, hdraws.vacant, rfl⟩
        rw [(d.draw_eq_ok_iff _ _ _).mpr ⟨bytes, l, image, hread, hlayout, hpicture, hwrite⟩]
          at hdraw
        exact nomatch hdraw
  · refine Or.inr ⟨fun place image hdraws => hjava hdraws.java, ?_⟩
    rw [if_neg hjava, eq_false_of_ne_true hjava, Bool.not_false]

section

variable {i : Invocation} {input : String} {bytes : List UInt8} {l : Layout}
  (hcommand : i.command = .render) (hjava : isJavaSource input = true)
  (hread : d.read input.toList = .ok bytes) (hlayout : Settings.layoutOfBytes {} bytes = .ok l)
include hcommand hjava hread hlayout

/-- A source that can be read is drawn as its layout is. -/
theorem pass_of_read :
    d.pass i input = match d.drawLayout l (i.output.getD (input ++ ".png")) with
      | .error _ => (false, { disk := d })
      | .ok after => (true, { disk := after }) := by
  rcases d.draw_of_read (i.output.getD (input ++ ".png")) hread with ⟨l', hlayout', hdraw⟩
  -- The layout that is drawn is the one in question, for a file has no other.
  rw [hlayout, Except.ok.injEq] at hlayout'
  unfold pass handle defaultOutput
  simp only [hcommand, if_pos hjava, hdraw, ← hlayout']
  cases d.drawLayout l (i.output.getD (input ++ ".png")) with
  | error e => rfl
  | ok after => rfl

/-- A source with few lines is drawn unless it is blank or the picture is refused. -/
theorem handled_of_read (hfew : (Utf8.decode bytes).count '\n' < 2 ^ 30) :
    d.Handled i input (d.pass i input).1 (d.pass i input).2 := by
  rcases Settings.render_of_few_lines hlayout hfew with ⟨image, hrender⟩
  rw [d.pass_of_read hcommand hjava hread hlayout]
  unfold drawLayout Layout.picture
  by_cases hsize : l.width = 0 ∨ l.height = 0
  · simp only [if_pos hsize]
    exact .blank hcommand hjava hread hlayout hsize
  · -- Few lines are rendered without an overflow, so only writing can still fail.
    simp only [if_neg hsize, hrender]
    cases hwrite : d.write (i.output.getD (input ++ ".png")).toList image with
    | error e => exact .refused hcommand hjava hread hlayout hsize hrender hwrite
    | ok after => exact .drawn hcommand hjava hread hlayout hsize hrender hwrite

end

/-- What becomes of a file is one of six things, if a source has few lines. -/
theorem handled_pass (i : Invocation) (input : String)
    (hfew : i.command = .render → isJavaSource input = true → ∀ bytes,
      d.read input.toList = .ok bytes → (Utf8.decode bytes).count '\n' < 2 ^ 30) :
    d.Handled i input (d.pass i input).1 (d.pass i input).2 := by
  cases hcommand : i.command with
  | dump =>
      unfold pass handle dump
      cases hread : d.read input.toList with
      | error e =>
          simp only [hcommand]
          exact .unreadable (fun hrender => nomatch hcommand.symm.trans hrender) hread
      | ok bytes =>
          -- Condensing never fails, so what can be read is dumped.
          have hfragments := Settings.fragments_eq {} (Utf8.decode bytes)
          simp only [hcommand, hfragments]
          exact .dumped hcommand hread hfragments
  | render =>
      by_cases hjava : isJavaSource input = true
      · cases hread : d.read input.toList with
        | error e =>
            unfold pass handle draw
            simp only [hcommand, if_pos hjava, hread]
            exact .unreadable (fun _ => hjava) hread
        | ok bytes =>
            have hlayout := Settings.layout_eq {} _ (Settings.fragments_eq {} (Utf8.decode bytes))
            exact d.handled_of_read hcommand hjava hread hlayout
              (hfew hcommand hjava bytes hread)
      · unfold pass handle
        simp only [hcommand, if_neg hjava]
        exact .skipped hcommand (eq_false_of_ne_true hjava)

/-- No other thing becomes of it. -/
theorem Handled.pass_eq {i : Invocation} {d : Disk} {input : String} {succeeds : Bool}
    {trail : Trail} (h : d.Handled i input succeeds trail) :
    d.pass i input = (succeeds, trail) := by
  cases h with
  | dumped command read reading =>
      unfold pass handle dump
      simp only [command, read, reading]
  | skipped command name =>
      unfold pass handle
      simp only [command, name, Bool.false_eq_true, if_false]
  | unreadable looked read =>
      unfold pass handle
      cases hcommand : i.command with
      | dump =>
          unfold dump
          simp only [read]
      | render =>
          unfold draw
          simp only [if_pos (looked hcommand), read]
  | blank command name read layout size =>
      -- The rest are sources that can be read, and what becomes of these is
      -- settled by their layout.
      rw [d.pass_of_read command name read layout]
      unfold drawLayout Layout.picture
      simp only [if_pos size]
  | refused command name read layout size picture write =>
      rw [d.pass_of_read command name read layout]
      unfold drawLayout Layout.picture
      simp only [if_neg size, picture, write]
  | drawn command name read layout size picture write =>
      rw [d.pass_of_read command name read layout]
      unfold drawLayout Layout.picture
      simp only [if_neg size, picture, write]

/-- On a disk whose files have few lines, so do the files that can be read. -/
theorem FewLines.read {d : Disk} (hfew : d.FewLines) {path : List Char} {bytes : List UInt8}
    (hread : d.read path = .ok bytes) : (Utf8.decode bytes).count '\n' < 2 ^ 30 := by
  rcases (d.read_eq_ok_iff _ bytes).mp hread with ⟨place, node, -, hnode, hbytes⟩
  exact hfew place node bytes hnode hbytes

/-- What becomes of a file that is rendered alone is one of five things. -/
theorem result_visit (hfew : d.FewLines) (input : String) :
    d.Result input (if (d.visit input).1 then .success else .failure) (d.visit input).2 := by
  have hhandled := d.handled_pass ⟨.render, [input], none⟩ input
    fun _ _ bytes hread => hfew.read hread
  rw [pass_render] at hhandled
  cases hvisit : d.visit input with
  | mk done after =>
      rw [hvisit] at hhandled
      -- Nothing is dumped here, which leaves five of the six.
      cases hhandled with
      | skipped _ name => exact .skipped name
      | unreadable looked read => exact .unreadable (looked rfl) read
      | blank _ name read layout size => exact .blank name read layout size
      | refused _ name read layout size picture write =>
          exact .refused name read layout size picture write
      | drawn _ name read layout size picture write =>
          exact .drawn name read layout size picture write

end Disk

end SourceTexture
