import SourceTexture.Proofs.CommandLine.Outcomes

/-!
# Files do not meddle

Rendering several files does what rendering each of them alone would do.

A run carries one disk from file to file. A picture that was written could be what
the next file reads, stand in the way of the next picture, or be written over, and
a failure could end the run. None of this happens. After any number of files the
disk is the one the run began with, and what was drawn to a place is what the files
seen so far draw to it on that first disk. This is kept from file to file, because a
disk that only grew draws what it drew.

So the disk that is left does not depend on the order of the files, and the run fails
if one of the files fails.

## Main definitions

* `Disk.Received`: A disk after some files were drawn.
* `Session.renderExit`, `Session.renderDisk`: How a run ends, and what it leaves.
* `Session.Independent`: A run does what the runs with one file do.

## Theorems

* `Disk.Received.visit`: One more file may be drawn.
* `Disk.Received.visits`: So may several.
* `Disk.Received.node?_eq`: What was drawn depends on which files there are.
* `Session.files_independent`: The files of a run are independent.
-/

namespace SourceTexture

namespace Disk

/-- A disk after some files were drawn, compared with the disk before. -/
structure Received (before after : Disk) (files : List String) : Prop where
  /-- The disk only grew. -/
  grown : before.Grown after
  /-- What the files draw is there. -/
  drawn : ∀ f ∈ files, ∀ place image, before.Draws f place image →
    after.node? place = some (.picture image)
  /-- Where none of them draws nothing changed. -/
  kept : ∀ place, (∀ f ∈ files, ∀ image, ¬ before.Draws f place image) →
    after.node? place = before.node? place

namespace Received

variable {d after : Disk} {files : List String}

theorem refl (d : Disk) : d.Received d [] :=
  ⟨Grown.refl d, fun _ hf => absurd hf List.not_mem_nil, fun _ _ => rfl⟩

/-- Whether a file succeeds is not changed by the files before it. -/
theorem visit_fst (h : d.Received after files) (f : String) :
    (after.visit f).1 = (d.visit f).1 := by
  rcases d.visit_cases f with ⟨place, image, hdraws, hvisit⟩ | ⟨hnone, hvisit⟩
  · rcases after.visit_cases f with ⟨place', image', -, hvisit'⟩ | ⟨hnone', -⟩
    · rw [hvisit, hvisit']
    · -- What is drawn now could be drawn at the beginning, and the other way round.
      exact absurd ((h.grown.draws_iff f place image).mpr hdraws) (hnone' place image)
  · rcases after.visit_cases f with ⟨place', image', hdraws', -⟩ | ⟨-, hvisit'⟩
    · exact absurd ((h.grown.draws_iff f place' image').mp hdraws') (hnone place' image')
    · rw [hvisit, hvisit']

/-- One more file may be drawn. -/
theorem visit (h : d.Received after files) (f : String) :
    d.Received (after.visit f).2 (files ++ [f]) := by
  rcases after.visit_cases f with ⟨place, image, hdraws, hvisit⟩ | ⟨hnone, hvisit⟩
  · rw [hvisit]
    have hbefore := (h.grown.draws_iff f place image).mp hdraws
    refine ⟨h.grown.trans hdraws.grown, fun g hg place' image' hdraws' => ?_,
      fun place' hplace' => ?_⟩
    · rw [node?_put after place place' _ hdraws.place_ne_root]
      by_cases hplace : place' = place
      · -- Another file that was drawn here was drawn as the same picture.
        rw [hplace] at hdraws'
        rw [if_pos hplace, hdraws'.unique hbefore]
      · rw [if_neg hplace]
        rcases List.mem_append.mp hg with hg | hg
        · exact h.drawn g hg place' image' hdraws'
        · rw [List.mem_singleton.mp hg] at hdraws'
          exact absurd (hdraws'.leads.unique hbefore.leads) hplace
    · have hplace : place' ≠ place := by
        intro heq
        rw [heq] at hplace'
        exact hplace' f List.mem_append_cons_self image hbefore
      rw [node?_put after place place' _ hdraws.place_ne_root, if_neg hplace]
      exact h.kept place' fun g hg => hplace' g (List.mem_append_left _ hg)
  · rw [hvisit]
    refine ⟨h.grown, fun g hg place' image' hdraws' => ?_, fun place' hplace' => ?_⟩
    · rcases List.mem_append.mp hg with hg | hg
      · exact h.drawn g hg place' image' hdraws'
      · rw [List.mem_singleton.mp hg] at hdraws'
        exact absurd ((h.grown.draws_iff f place' image').mpr hdraws') (hnone place' image')
    · exact h.kept place' fun g hg => hplace' g (List.mem_append_left _ hg)

/-- Several more files may be drawn, and each succeeds if it does alone. -/
theorem visits (h : d.Received after files) (others : List String) :
    d.Received (after.visits others).2 (files ++ others) ∧
      (after.visits others).1 = others.map fun f => (d.visit f).1 := by
  induction others generalizing after files with
  | nil =>
      refine ⟨?_, rfl⟩
      rw [List.append_nil]
      exact h
  | cons f others ih =>
      -- The next file finds a disk that has received one more picture.
      rcases ih (h.visit f) with ⟨hreceived, hdone⟩
      rw [List.append_assoc, List.singleton_append] at hreceived
      refine ⟨hreceived, ?_⟩
      rw [List.map_cons, ← hdone, ← h.visit_fst f]
      rfl

/-- What has changed was drawn by one of the files. -/
theorem exists_draws (h : d.Received after files) {place : Place}
    (hchanged : after.node? place ≠ d.node? place) :
    ∃ f ∈ files, ∃ image, d.Draws f place image := by
  by_contra hnone
  refine hchanged (h.kept place fun f hf image hdraws => ?_)
  exact hnone ⟨f, hf, image, hdraws⟩

/-- Two disks that received a file agree on what it draws. -/
theorem node?_eq_of_draws {after' : Disk} {files' : List String} {f : String} {place : Place}
    {image : Image} (h : d.Received after files) (h' : d.Received after' files') (hf : f ∈ files)
    (hf' : f ∈ files') (hdraws : d.Draws f place image) :
    after.node? place = after'.node? place := by
  rw [h.drawn f hf place image hdraws, h'.drawn f hf' place image hdraws]

/-- What was drawn depends on which files there are, and on nothing else. -/
theorem node?_eq {after' : Disk} {files' : List String} (h : d.Received after files)
    (h' : d.Received after' files') (hsame : ∀ f, f ∈ files ↔ f ∈ files') (place : Place) :
    after.node? place = after'.node? place := by
  -- A place that differs from the beginning on either disk has got the picture of a file, and
  -- the file is among both.
  by_cases hchanged : after.node? place = d.node? place
  · by_cases hchanged' : after'.node? place = d.node? place
    · rw [hchanged, hchanged']
    · rcases h'.exists_draws hchanged' with ⟨f, hf, image, hdraws⟩
      exact h.node?_eq_of_draws h' ((hsame f).mpr hf) hf hdraws
  · rcases h.exists_draws hchanged with ⟨f, hf, image, hdraws⟩
    exact h.node?_eq_of_draws h' hf ((hsame f).mp hf) hdraws

end Received

end Disk

namespace Session

/-- How a run ends that is to render files. -/
def renderExit (s : Session) (t : Threshold) (files : List String) : Exit :=
  (s.run t ("render" :: files)).1

/-- The disk that such a run leaves. -/
def renderDisk (s : Session) (t : Threshold) (files : List String) : Disk :=
  (s.run t ("render" :: files)).2.disk

/-- A run with several files does what the runs with one of them do. -/
structure Independent (s : Session) (t : Threshold) (files : List String) : Prop where
  /-- What becomes of a file alone is one of five things. -/
  alone : ∀ f ∈ files, s.disk.Result f (s.renderExit t [f]) (s.renderDisk t [f])
  /-- The run fails if one of the files fails alone. Without files there is nothing to
      run. -/
  exit : s.renderExit t files =
    if files = [] then .misuse
    else if ∃ f ∈ files, s.renderExit t [f] = .failure then .failure
    else .success
  /-- What a file alone changes is changed in the same way. -/
  changed : ∀ f ∈ files, ∀ place, (s.renderDisk t [f]).node? place ≠ s.disk.node? place →
    (s.renderDisk t files).node? place = (s.renderDisk t [f]).node? place
  /-- What none of the files changes alone is not changed. -/
  kept : ∀ place, (∀ f ∈ files, (s.renderDisk t [f]).node? place = s.disk.node? place) →
    (s.renderDisk t files).node? place = s.disk.node? place
  /-- The sources read as they did. -/
  sources : ∀ f ∈ files, isJavaSource f = true → ∀ bytes, s.disk.read f.toList = .ok bytes →
    (s.renderDisk t files).read f.toList = .ok bytes
  /-- The order of the files does not matter. -/
  order : ∀ others : List String, others.Perm files → s.renderExit t others = s.renderExit t files ∧
    ∀ place, (s.renderDisk t others).node? place = (s.renderDisk t files).node? place

section

variable (s : Session) (t : Threshold) {files : List String}
  (hplain : ∀ f ∈ files, f ≠ "-o" ∧ f ≠ "--output")
include hplain

/-- A run leaves the disk with the pictures of its files. -/
theorem received_renderDisk : s.disk.Received (s.renderDisk t files) files := by
  have hvisits := ((Disk.Received.refl s.disk).visits files).1
  rw [List.nil_append] at hvisits
  unfold renderDisk
  -- Without files there is no run to speak of, and nothing to receive.
  by_cases hfiles : files = []
  · rw [hfiles]
    exact Disk.Received.refl s.disk
  · rw [(s.run_render t hfiles hplain).2]
    exact hvisits

/-- A run without files is a misuse, and another one fails if one of its files does
    alone. -/
theorem renderExit_eq : s.renderExit t files =
    if files = [] then .misuse
    else if ∃ f ∈ files, (s.disk.visit f).1 = false then .failure
    else .success := by
  unfold renderExit
  by_cases hfiles : files = []
  · rw [hfiles, if_pos rfl]
    rfl
  · -- All of them succeed exactly if none fails.
    have hall : (files.map fun f => (s.disk.visit f).1).all id = true ↔
        ¬ ∃ f ∈ files, (s.disk.visit f).1 = false := by
      rw [List.all_map, List.all_eq_true]
      constructor
      · rintro hall ⟨f, hf, hfailed⟩
        have hdone := hall f hf
        rw [Function.comp_apply, hfailed] at hdone
        exact Bool.false_ne_true hdone
      · intro hnone f hf
        exact eq_true_of_ne_false fun hfailed => hnone ⟨f, hf, hfailed⟩
    rw [(s.run_render t hfiles hplain).1, if_neg hfiles,
      ((Disk.Received.refl s.disk).visits files).2]
    by_cases hfailed : ∃ f ∈ files, (s.disk.visit f).1 = false
    · rw [if_pos hfailed, if_neg fun h => hall.mp h hfailed]
    · rw [if_neg hfailed, if_pos (hall.mpr hfailed)]

end

/-- A run with one file is a visit. -/
theorem render_alone (s : Session) (t : Threshold) {f : String}
    (hplain : f ≠ "-o" ∧ f ≠ "--output") :
    s.renderExit t [f] = (if (s.disk.visit f).1 then .success else .failure) ∧
      s.renderDisk t [f] = (s.disk.visit f).2 := by
  rcases s.run_render t (List.cons_ne_nil f []) (List.forall_mem_singleton.mpr hplain) with
    ⟨hexit, hdisk⟩
  have hall : (s.disk.visits [f]).1.all id = (s.disk.visit f).1 := Bool.and_true _
  rw [hall] at hexit
  exact ⟨hexit, hdisk⟩

/-- The files of a run are independent. -/
theorem files_independent (s : Session) (t : Threshold) {files : List String}
    (hplain : ∀ f ∈ files, f ≠ "-o" ∧ f ≠ "--output") (hfew : s.disk.FewLines) :
    s.Independent t files := by
  have hwhole := s.received_renderDisk t hplain
  have halone : ∀ f ∈ files, s.disk.Received (s.renderDisk t [f]) [f] :=
    fun f hf => s.received_renderDisk t (List.forall_mem_singleton.mpr (hplain f hf))
  have hfailure : ∀ f ∈ files,
      (s.renderExit t [f] = .failure ↔ (s.disk.visit f).1 = false) := by
    intro f hf
    rw [(s.render_alone t (hplain f hf)).1]
    cases (s.disk.visit f).1 with
    | false => exact ⟨fun _ => rfl, fun _ => rfl⟩
    | true => exact ⟨nofun, nofun⟩
  refine ⟨fun f hf => ?_, ?_, fun f hf place hchanged => ?_, fun place hsame => ?_,
    fun f _ hjava bytes hread => (hwhole.grown.read_iff hjava bytes).mpr hread,
    fun others hperm => ?_⟩
  · rcases s.render_alone t (hplain f hf) with ⟨hexit, hdisk⟩
    rw [hexit, hdisk]
    exact s.disk.result_visit hfew f
  · rw [s.renderExit_eq t hplain]
    have hiff : (∃ f ∈ files, s.renderExit t [f] = .failure) ↔
        ∃ f ∈ files, (s.disk.visit f).1 = false :=
      exists_congr fun f => and_congr_right fun hf => hfailure f hf
    simp only [hiff]
  · -- The change is a picture that the file draws, and the run draws it as well.
    rcases (halone f hf).exists_draws hchanged with ⟨g, hg, image, hdraws⟩
    have hg' : g ∈ files := by rwa [List.mem_singleton.mp hg]
    exact hwhole.node?_eq_of_draws (halone f hf) hg' hg hdraws
  · by_contra hchanged
    rcases hwhole.exists_draws hchanged with ⟨f, hf, image, hdraws⟩
    have hagree := hwhole.node?_eq_of_draws (halone f hf) hf (List.mem_singleton_self f) hdraws
    exact hchanged (hagree.trans (hsame f hf))
  · have hsame : ∀ f, f ∈ others ↔ f ∈ files := fun f => hperm.mem_iff
    have hplain' : ∀ f ∈ others, f ≠ "-o" ∧ f ≠ "--output" :=
      fun f hf => hplain f ((hsame f).mp hf)
    refine ⟨?_, (s.received_renderDisk t hplain').node?_eq hwhole hsame⟩
    rw [s.renderExit_eq t hplain', s.renderExit_eq t hplain]
    have hnil : others = [] ↔ files = [] := by
      rw [← List.length_eq_zero_iff, hperm.length_eq, List.length_eq_zero_iff]
    simp only [hnil, hsame]

/-- Two sources, of which the second has a directory where its picture belongs. -/
def blocked : Session where
  disk :=
    { nodes := [(["A.java".toList], .file [97]), (["B.java".toList], .file [98]),
        (["B.java.png".toList], .directory)] }

/-- The second source fails, and next to the first one there is something new all the
    same. -/
theorem files_independent_blocked :
    (∀ f ∈ ["B.java", "A.java", "C.txt"], f ≠ "-o" ∧ f ≠ "--output") ∧ blocked.disk.FewLines ∧
      blocked.Independent none ["B.java", "A.java", "C.txt"] ∧
      blocked.renderExit none ["B.java", "A.java", "C.txt"] = .failure ∧
      blocked.disk.node? ["A.java.png".toList] = none ∧
      (blocked.renderDisk none ["B.java", "A.java", "C.txt"]).node? ["A.java.png".toList]
        ≠ none := by
  have hplain : ∀ f ∈ ["B.java", "A.java", "C.txt"], f ≠ "-o" ∧ f ≠ "--output" := by decide
  have hfew : blocked.disk.FewLines := Disk.FewLines.of_nodes (by decide)
  have hindependent := blocked.files_independent none hplain hfew
  have hfailed : blocked.renderExit none ["B.java"] = .failure := rfl
  have hvacant : blocked.disk.node? ["A.java.png".toList] = none := rfl
  have hdrawn : (blocked.renderDisk none ["A.java"]).node? ["A.java.png".toList] ≠ none := by
    rw [← Option.isSome_iff_ne_none]
    decide +kernel
  refine ⟨hplain, hfew, hindependent, ?_, hvacant, ?_⟩
  · rw [hindependent.exit, if_neg (List.cons_ne_nil _ _),
      if_pos ⟨"B.java", List.mem_cons_self, hfailed⟩]
  · rw [hindependent.changed "A.java" (by decide) _ (by rwa [hvacant])]
    exact hdrawn

end Session

end SourceTexture
