import SourceTexture.Proofs.CommandLine.Places

/-!
# Drawing leaves sources alone

What a picture that was written changes for the files still to come.

While pictures are written a disk only grows, and in one direction: under the
name of a picture there may be a picture now, where there was something else
before or nothing at all. Directories stay directories and nothing becomes one,
so every path that led somewhere leads there still. Sources have other names, so
they read as they did. And a picture can be written where it could be written
before.

Whether a file is drawn, where, and as what is therefore settled by the disk that
the run began with. Two files that are drawn to one place are one source, and the
picture is the same.

## Main definitions

* `Disk.Grown`: Only pictures were added, under names of pictures.
* `Disk.Draws`: A file is drawn to a place.

## Theorems

* `Disk.Grown.leads_iff`, `Disk.Grown.read_iff`: Ways and sources stay as they are.
* `Disk.Grown.draws_iff`: So does what is drawn.
* `Disk.Draws.unique`: A place is drawn in one way only.
* `Disk.Draws.grown`: Drawing adds one picture.
-/

namespace SourceTexture

/-- The extension of the entry in a place. -/
def Place.extension? (place : Place) : Option Name :=
  place.head?.bind Path.nameExtension?

namespace Disk

/-- A disk after nothing but pictures were added to it, under names of pictures. -/
structure Grown (before after : Disk) : Prop where
  /-- Relative paths start where they did. -/
  here : after.here = before.here
  /-- A place holds what it held, or it is no directory and holds a picture now. -/
  place : ∀ place : Place, after.node? place = before.node? place ∨
    before.node? place ≠ some .directory ∧ (∃ image, after.node? place = some (.picture image)) ∧
      place.extension? = some "png".toList

namespace Grown

variable {d after : Disk}

theorem refl (d : Disk) : d.Grown d :=
  ⟨rfl, fun _ => Or.inl rfl⟩

/-- What is new are pictures, so directories stay and there are no others. -/
theorem directory_iff (h : d.Grown after) (place : Place) :
    after.node? place = some .directory ↔ d.node? place = some .directory := by
  rcases h.place place with hsame | ⟨hbefore, ⟨image, hpicture⟩, -⟩
  · rw [hsame]
  · rw [hpicture]
    exact ⟨nofun, fun heq => absurd heq hbefore⟩

/-- Growing twice is growing. -/
theorem trans {last : Disk} (h : d.Grown after) (h' : after.Grown last) : d.Grown last := by
  refine ⟨h'.here.trans h.here, fun place => ?_⟩
  rcases h'.place place with hsame | ⟨hbefore, hpicture, hextension⟩
  · rw [hsame]
    exact h.place place
  · exact Or.inr ⟨fun hd => hbefore ((h.directory_iff place).mpr hd), hpicture, hextension⟩

theorem step_iff (h : d.Grown after) (place : Place) (name : Name) (next : Place) :
    after.step place name = .ok next ↔ d.step place name = .ok next := by
  rw [step_eq_ok_iff, step_eq_ok_iff, h.directory_iff]

/-- A walk from name to name ends in the same place before and after. -/
theorem foldlM_step_iff (h : d.Grown after) (names : List Name) (start next : Place) :
    names.foldlM after.step start = .ok next ↔ names.foldlM d.step start = .ok next := by
  induction names generalizing start with
  | nil => exact Iff.rfl
  | cons name names ih =>
      simp only [List.foldlM_cons]
      cases hstep : d.step start name with
      | ok middle =>
          rw [(h.step_iff start name middle).mpr hstep]
          exact ih middle
      | error e =>
          -- The step that fails on one disk fails on the other, if not in the same way.
          cases hstep' : after.step start name with
          | ok middle =>
              rw [(h.step_iff start name middle).mp hstep'] at hstep
              exact nomatch hstep
          | error e' => exact ⟨nofun, nofun⟩

/-- A path leads where it led. -/
theorem leads_iff (h : d.Grown after) (path : List Char) (place : Place) :
    after.Leads path place ↔ d.Leads path place := by
  have hresolve (p : Path) : after.resolve p = .ok place ↔ d.resolve p = .ok place := by
    have horigin : after.origin p = d.origin p := by rw [origin, h.here, origin]
    unfold resolve
    rw [horigin]
    exact h.foldlM_step_iff p.names _ place
  unfold Leads
  simp only [hresolve]

/-- A source reads as it did: it does not have the name of a picture. -/
theorem read_iff (h : d.Grown after) {input : String} (hjava : isJavaSource input = true)
    (bytes : List UInt8) :
    after.read input.toList = .ok bytes ↔ d.read input.toList = .ok bytes := by
  rw [read_eq_ok_iff, read_eq_ok_iff]
  refine exists_congr fun place => exists_congr fun node => ?_
  rw [h.leads_iff]
  refine and_congr_right fun hleads => and_congr_left fun hbytes => ?_
  rcases h.place place with hsame | ⟨hbefore, -, hextension⟩
  · rw [hsame]
  · -- A place that holds something new has the name of a picture.
    rcases hleads.of_source hjava hbefore with ⟨name, parent, hplace, -, hname, -⟩
    rw [hplace, Place.extension?, List.head?_cons, Option.bind_some, hname,
      Option.some.injEq] at hextension
    exact absurd hextension (by decide)

end Grown

/-- A file is drawn to a place. -/
structure Draws (d : Disk) (input : String) (place : Place) (image : Image) : Prop where
  /-- It is a source by its name. -/
  java : isJavaSource input = true
  /-- It can be read and has a picture. -/
  source : ∃ bytes l, d.read input.toList = .ok bytes ∧ Settings.layoutOfBytes {} bytes = .ok l ∧
    l.picture .standard = .ok image
  /-- The path of the picture leads to the place. -/
  leads : d.Leads (defaultOutput input).toList place
  /-- A picture can be put there. -/
  vacant : d.node? place ≠ some .directory

/-- A file is drawn after other pictures have appeared exactly if it was before, in the
    same place and with the same picture. -/
theorem Grown.draws_iff {d after : Disk} (h : d.Grown after) (input : String) (place : Place)
    (image : Image) : after.Draws input place image ↔ d.Draws input place image := by
  constructor
  · rintro ⟨hjava, ⟨bytes, l, hread, hpicture⟩, hleads, hvacant⟩
    -- A source is no picture, so it holds what it held.
    refine ⟨hjava, ⟨bytes, l, (h.read_iff hjava bytes).mp hread, hpicture⟩,
      (h.leads_iff _ place).mp hleads, fun hd => ?_⟩
    exact hvacant ((h.directory_iff place).mpr hd)
  · rintro ⟨hjava, ⟨bytes, l, hread, hpicture⟩, hleads, hvacant⟩
    refine ⟨hjava, ⟨bytes, l, (h.read_iff hjava bytes).mpr hread, hpicture⟩,
      (h.leads_iff _ place).mpr hleads, fun hd => ?_⟩
    exact hvacant ((h.directory_iff place).mp hd)

namespace Draws

variable {d : Disk} {input : String} {place : Place} {image : Image}

/-- The source of a picture lies beside it. -/
theorem exists_source (h : d.Draws input place image) :
    ∃ name parent node bytes l, place = (name ++ ".png".toList) :: parent ∧ name ≠ [] ∧
      d.node? (name :: parent) = some node ∧ node.bytes? = some bytes ∧
      Settings.layoutOfBytes {} bytes = .ok l ∧ l.picture .standard = .ok image := by
  rcases h.source with ⟨bytes, l, hread, hlayout, hpicture⟩
  rcases (d.read_eq_ok_iff _ bytes).mp hread with ⟨source, node, hleads, hnode, hbytes⟩
  -- A directory holds no bytes to be read.
  have hfile : d.node? source ≠ some .directory := by
    rw [hnode]
    intro heq
    rw [(node.bytes?_eq_none_iff).mpr (Option.some.inj heq)] at hbytes
    exact nomatch hbytes
  rcases hleads.of_source h.java hfile with ⟨name, parent, hsource, hname, -, hbeside⟩
  rw [hsource] at hnode
  exact ⟨name, parent, node, bytes, l, h.leads.unique hbeside, hname, hnode, hbytes, hlayout,
    hpicture⟩

theorem extension?_place (h : d.Draws input place image) :
    place.extension? = some "png".toList := by
  rcases h.exists_source with ⟨name, parent, -, -, -, hplace, hname, -⟩
  rw [hplace]
  exact Path.nameExtension?_append hname (by decide)

theorem place_ne_root (h : d.Draws input place image) : place ≠ [] := by
  rcases h.exists_source with ⟨name, parent, -, -, -, hplace, -⟩
  rw [hplace]
  exact List.cons_ne_nil _ _

/-- Files that are drawn to one place are drawn from one place, so they are drawn
    alike. -/
theorem unique {input' : String} {image' : Image} (h : d.Draws input place image)
    (h' : d.Draws input' place image') : image = image' := by
  rcases h.exists_source with ⟨name, parent, node, bytes, l, hplace, -, hnode, hbytes, hlayout,
    hpicture⟩
  rcases h'.exists_source with ⟨name', parent', node', bytes', l', hplace', -, hnode', hbytes',
    hlayout', hpicture'⟩
  -- The name of a picture gives that of its source away.
  rw [hplace] at hplace'
  rcases List.cons.inj hplace' with ⟨hnames, hparents⟩
  rw [← List.append_cancel_right hnames, ← hparents, hnode, Option.some.injEq] at hnode'
  rw [← hnode', hbytes, Option.some.injEq] at hbytes'
  rw [← hbytes', hlayout, Except.ok.injEq] at hlayout'
  rw [← hlayout', hpicture, Except.ok.injEq] at hpicture'
  exact hpicture'

/-- Drawing a file adds a picture and nothing else. -/
theorem grown (h : d.Draws input place image) : d.Grown (d.put place (.picture image)) := by
  refine ⟨rfl, fun other => ?_⟩
  rw [node?_put d place other _ h.place_ne_root]
  by_cases hother : other = place
  · rw [if_pos hother, hother]
    -- The picture has the extension of one, so no source is overwritten.
    exact Or.inr ⟨h.vacant, ⟨image, rfl⟩, h.extension?_place⟩
  · rw [if_neg hother]
    exact Or.inl rfl

end Draws

end Disk

end SourceTexture
