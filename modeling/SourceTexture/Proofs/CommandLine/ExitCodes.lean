import SourceTexture.Proofs.CommandLine.Outcomes

/-!
# Exit codes

What the exit code tells about a run, and what a run may change.

There are three codes. The first question is whether the arguments ask for anything,
and it is settled before any file is looked at, so a run that ends with the code for
misuse has done nothing. All other runs work on every file they were given, one
after the other, and a failure is remembered until the end.

What becomes of a file depends on the disk at its turn. Sources read as they did
when the run began, since only pictures were added, so they have few lines at their
turn if they had few lines then. A run with an output path has one file only, and
no turn after the first.

## Main definitions

* `Disk.Works`: Files are worked on one after the other.
* `Session.Concludes`: What the end of a run tells about it.

## Theorems

* `Disk.grown_pass`: A file that was worked on leaves the sources as they were.
* `Disk.works_passes`, `Disk.Works.passes_eq`: Every file has its turn, in one way.
* `Session.exit_code_tells`: What the end of every run tells.
-/

namespace SourceTexture

namespace Disk

/-- Files are worked on one after the other: which of them succeed, and what is left in
    the end. Each finds the disk that the one before it left. -/
inductive Works (i : Invocation) : Disk → List String → List Bool → Trail → Prop where
  /-- There are no more files. -/
  | done {d : Disk} : Works i d [] [] { disk := d }
  /-- One file has its turn, whether it succeeds or not, and the others after it. -/
  | next {d : Disk} {input : String} {inputs : List String} {succeeds : Bool}
      {others : List Bool} {first rest : Trail} (handled : d.Handled i input succeeds first)
      (behind : Works i first.disk inputs others rest) :
      Works i d (input :: inputs) (succeeds :: others) ⟨rest.disk, first.lines ++ rest.lines⟩

variable {i : Invocation}

/-- Dumping changes no disk. -/
theorem disk_pass_dump (hdump : i.command = .dump) (d : Disk) (input : String) :
    (d.pass i input).2.disk = d := by
  unfold pass handle
  rw [hdump]
  simp only
  cases d.dump input with
  | error e => rfl
  | ok lines => rfl

/-- Dumping several files changes nothing on the disk either. -/
theorem disk_passes_dump (hdump : i.command = .dump) (d : Disk) (inputs : List String) :
    (d.passes i inputs).2.disk = d := by
  induction inputs generalizing d with
  | nil => rfl
  | cons input inputs ih =>
      unfold passes
      simp only [ih, disk_pass_dump hdump]

/-- Where the picture goes next to its source, work on a file leaves all sources as they
    were. -/
theorem grown_pass (hplace : i.output = none) (d : Disk) (input : String) :
    d.Grown (d.pass i input).2.disk := by
  cases hcommand : i.command with
  | dump =>
      rw [disk_pass_dump hcommand]
      exact Grown.refl d
  | render =>
      have hi : i = ⟨.render, i.files, none⟩ := by rw [← hcommand, ← hplace]
      rw [hi, pass_render]
      -- Either a picture is put next to the source, or nothing happens to the disk.
      rcases d.visit_cases input with ⟨place, image, hdraws, hvisit⟩ | ⟨-, hvisit⟩
      · rw [hvisit]
        exact hdraws.grown
      · rw [hvisit]
        exact Grown.refl d

/-- Whether every source on a disk that can be read has fewer than `2 ^ 30` line
    breaks. -/
def ShortSources (d : Disk) : Prop :=
  ∀ input, isJavaSource input = true → ∀ bytes, d.read input.toList = .ok bytes →
    (Utf8.decode bytes).count '\n' < 2 ^ 30

theorem Grown.shortSources {d after : Disk} (h : d.Grown after) (hshort : d.ShortSources) :
    after.ShortSources :=
  fun input hjava bytes hread => hshort input hjava bytes ((h.read_iff hjava bytes).mp hread)

/-- Every file has its turn. -/
theorem works_passes {d : Disk} (hshort : d.ShortSources) {inputs : List String}
    (hplace : i.output = none ∨ ∃ input, inputs = [input]) :
    d.Works i inputs (d.passes i inputs).1 (d.passes i inputs).2 := by
  induction inputs generalizing d with
  | nil => exact .done
  | cons input inputs ih =>
      have hhandled := d.handled_pass i input fun _ => hshort input
      refine .next hhandled ?_
      rcases hplace with hplace | ⟨only, honly⟩
      · exact ih ((grown_pass hplace d input).shortSources hshort) (Or.inl hplace)
      · -- An output path is for one file, and nothing comes after it.
        rw [(List.cons.inj honly).2]
        exact .done

/-- There is only one way for all of them to have their turns. -/
theorem Works.passes_eq {d : Disk} {inputs : List String} {done : List Bool} {trail : Trail}
    (h : d.Works i inputs done trail) : d.passes i inputs = (done, trail) := by
  induction h with
  | done => rfl
  | next handled _ ih =>
      unfold passes
      simp only [handled.pass_eq, ih]

/-- A file that is rendered to an output path changes no place but the one the path
    leads to. -/
theorem disk_pass_output {path : String} (hcommand : i.command = .render)
    (hpath : i.output = some path) (d : Disk) (input : String) :
    (d.pass i input).2.disk = d ∨ ∃ place image, d.Leads path.toList place ∧
      (d.pass i input).2.disk = d.put place (.picture image) := by
  unfold pass handle
  simp only [hcommand, hpath, Option.getD_some]
  by_cases hjava : isJavaSource input = true
  · simp only [if_pos hjava]
    cases hdraw : d.draw input path with
    | error e => exact Or.inl rfl
    | ok after =>
        -- A picture that was drawn was written, and so the path leads somewhere.
        rcases (d.draw_eq_ok_iff _ _ _).mp hdraw with ⟨-, -, image, -, -, -, hwrite⟩
        rcases (d.write_eq_ok_iff _ _ _).mp hwrite with ⟨place, hleads, -, hafter⟩
        exact Or.inr ⟨place, image, hleads, hafter⟩
  · simp only [if_neg hjava]
    exact Or.inl trivial

end Disk

/-- What the end of a run tells about it. -/
structure Session.Concludes (s : Session) (t : Threshold) (args : List String) : Prop where
  /-- The code is 2 if the arguments ask for nothing, and only then. -/
  misuse : (s.run t args).1.code = 2 ↔ Misused args
  /-- Then nothing was written, and no results were printed. -/
  idle : Misused args → (s.run t args).2.disk = s.disk ∧ (s.run t args).2.results = s.results
  /-- If not, there is a command with its files. -/
  asks : ¬ Misused args → ∃ i, Asks args i
  /-- Every file has its turn, in order. -/
  turns : ¬ Misused args → ∀ i, Asks args i → ∃ done trail, s.disk.Works i i.files done trail
  /-- What that leaves is left in the end. The code is 1 if one of the files failed, and 0
      if all succeeded. -/
  work : ¬ Misused args → ∀ i, Asks args i → ∀ done trail, s.disk.Works i i.files done trail →
    (s.run t args).1.code = (if false ∈ done then 1 else 0) ∧
    (s.run t args).2.disk = trail.disk ∧
    (s.run t args).2.results = s.results ++ String.ofList (SessionM.printed trail.lines)
  /-- Dumping writes no file. -/
  dump : ∀ rest, args = "dump" :: rest → (s.run t args).2.disk = s.disk
  /-- Rendering to an output path writes no other file. -/
  output : ∀ files path, Asks args ⟨.render, files, some path⟩ →
    (s.run t args).2.disk = s.disk ∨ ∃ place image, s.disk.Leads path.toList place ∧
      (s.run t args).2.disk = s.disk.put place (.picture image)

namespace Session

variable (s : Session) (t : Threshold) {args : List String}

/-- The code after work on files tells whether one of them failed. -/
theorem code_of_outcomes (outcomes : List Bool) :
    (if outcomes.all id then Exit.success else Exit.failure).code
      = if false ∈ outcomes then 1 else 0 := by
  by_cases hfailed : false ∈ outcomes
  · -- A single failure is enough, wherever it stands.
    have hall : ¬ outcomes.all id = true := fun h =>
      Bool.false_ne_true (List.all_eq_true.mp h false hfailed)
    rw [if_pos hfailed, if_neg hall]
    rfl
  · have hall : outcomes.all id = true := List.all_eq_true.mpr fun done hdone =>
      eq_true_of_ne_false fun hfalse => hfailed (hfalse ▸ hdone)
    rw [if_neg hfailed, if_pos hall]
    rfl

/-- A run with misused arguments ends at once, and says so. -/
theorem run_of_misused (h : Misused args) :
    (s.run t args).1.code = 2 ∧ (s.run t args).2.disk = s.disk ∧
      (s.run t args).2.results = s.results := by
  rcases Invocation.parse_of_misused h with ⟨e, hparse⟩
  rcases s.run_of_misuse t hparse with ⟨notes, hrun⟩
  rw [hrun]
  exact ⟨rfl, rfl, rfl⟩

/-- A run that is asked for something passes over its files, and its code tells whether
    one of them failed. -/
theorem run_of_asks {i : Invocation} (h : Asks args i) (hused : ¬ Misused args) :
    (s.run t args).1.code = (if false ∈ (s.disk.passes i i.files).1 then 1 else 0) ∧
      (s.run t args).2.disk = (s.disk.passes i i.files).2.disk ∧
      (s.run t args).2.results = s.results
        ++ String.ofList (SessionM.printed (s.disk.passes i i.files).2.lines) := by
  rcases s.run_of_parse t (Invocation.parse_of_asks h hused) with ⟨notes, hrun⟩
  rw [hrun]
  exact ⟨code_of_outcomes _, rfl, rfl⟩

/-- A run ends with code 2 exactly if its arguments are misused. -/
theorem code_eq_two_iff : (s.run t args).1.code = 2 ↔ Misused args := by
  refine ⟨fun hcode => ?_, fun h => (s.run_of_misused t h).1⟩
  rcases Invocation.parse_cases args with ⟨-, hmisused⟩ | ⟨i, -, hasks, hused⟩
  · exact hmisused
  · -- Work on files ends with code 0 or 1.
    rw [(s.run_of_asks t hasks hused).1] at hcode
    split at hcode
    · exact absurd hcode (by decide)
    · exact absurd hcode (by decide)

/-- A run whose first argument is the command to dump leaves the disk as it was,
    whatever else it is given. -/
theorem disk_run_dump (rest : List String) : (s.run t ("dump" :: rest)).2.disk = s.disk := by
  rcases Invocation.parse_cases ("dump" :: rest) with ⟨-, hmisused⟩ | ⟨i, -, hasks, hused⟩
  · exact (s.run_of_misused t hmisused).2.1
  · -- The name in front settles what the command is.
    rw [(s.run_of_asks t hasks hused).2.1]
    generalize hargs : "dump" :: rest = args at hasks
    cases hasks with
    | intro command reads =>
        have hcommand : command = .dump := by
          cases command with
          | render => exact absurd (List.cons.inj hargs).1 (by decide)
          | dump => rfl
        exact Disk.disk_passes_dump hcommand _ _

/-- A run with an output path changes the place the path leads to, or none. -/
theorem disk_run_output {files : List String} {path : String}
    (hasks : Asks args ⟨.render, files, some path⟩) :
    (s.run t args).2.disk = s.disk ∨ ∃ place image, s.disk.Leads path.toList place ∧
      (s.run t args).2.disk = s.disk.put place (.picture image) := by
  by_cases hused : Misused args
  · exact Or.inl (s.run_of_misused t hused).2.1
  · -- With an output path there can only be one file to render.
    rcases hasks.output_eq_none hused with hnone | ⟨file, hfile⟩
    · exact nomatch hnone
    · have hone : files = [file] := hfile
      rw [hone] at hasks
      rw [(s.run_of_asks t hasks hused).2.1]
      exact Disk.disk_pass_output rfl rfl s.disk file

/-- The end of every run tells what it came to, on a disk whose files have few lines. -/
theorem exit_code_tells (hfew : s.disk.FewLines) (args : List String) :
    s.Concludes t args := by
  refine ⟨s.code_eq_two_iff t, fun h => (s.run_of_misused t h).2, fun hused => ?_,
    fun hused i hasks => ?_, fun hused i hasks done trail hworks => ?_, fun rest hargs => ?_,
    fun files path hasks => s.disk_run_output t hasks⟩
  · rcases Invocation.parse_cases args with ⟨-, hmisused⟩ | ⟨i, -, hasks, -⟩
    · exact absurd hmisused hused
    · exact ⟨i, hasks⟩
  · -- Few lines on the disk are few lines in every source.
    have hshort : s.disk.ShortSources := fun _ _ _ hread => hfew.read hread
    exact ⟨_, _, Disk.works_passes hshort (hasks.output_eq_none hused)⟩
  · have hpasses := s.run_of_asks t hasks hused
    rw [hworks.passes_eq] at hpasses
    exact hpasses
  · rw [hargs]
    exact s.disk_run_dump t rest

/-- A directory with a source and a note in it. -/
def shelf : Session where
  disk := { nodes := [(["A.java".toList], .file [97]), (["notes".toList], .file [98])] }

/-- Of two output paths the last one counts, and where it leads nowhere the run fails. -/
theorem exit_code_tells_shelf :
    shelf.disk.FewLines ∧
      shelf.Concludes none ["render", "-o", "a.png", "A.java", "-o", "x/b.png"] ∧
      (shelf.run none ["render", "-o", "a.png", "A.java", "-o", "x/b.png"]).1.code = 1 ∧
      shelf.Concludes none ["render", "A.java", "-o"] ∧
      (shelf.run none ["render", "A.java", "-o"]).1.code = 2 := by
  have hfew : shelf.disk.FewLines := Disk.FewLines.of_nodes (by decide)
  exact ⟨hfew, shelf.exit_code_tells none hfew _, by decide +kernel,
    shelf.exit_code_tells none hfew _, rfl⟩

end Session

end SourceTexture
