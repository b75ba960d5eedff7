import SourceTexture.CommandLine.Run
import SourceTexture.Proofs.CommandLine.Usage

/-!
# What a run does

The program on a system in memory, as a function of the disk.

The program reads, tells and writes in turn, and most of what it does is telling.
For the disk that does not matter: a program that only tells ends with its result
whatever was told before, and hands the session on with nothing but more notes.
Such programs may be put together, so a stage that tells about its work is as good
as the stage itself. Programs that also print lines of results are put together in
the same way, and the lines with them.

What is left of working on a file is a function of the disk alone, which gives the
disk afterwards and the lines printed on the way, and what is left of a run is this
function applied to one file after the other. Arguments that ask for nothing leave
everything as it was.

## Main definitions

* `SessionM.Tells`: A program that does nothing but tell.
* `SessionM.Prints`: A program that prints some lines besides.
* `Disk.drawLayout`, `Disk.draw`: The disk after a picture was drawn, or why it was
  not.
* `Disk.dump`: The lines printed about a file, or why there are none.
* `Disk.handle`: What working on a file does, or why it fails.
* `Disk.pass`, `Disk.passes`: What working on one file, or several, leaves.
* `Disk.visit`, `Disk.visits`: The same for rendering next to the sources.

## Theorems

* `SessionM.Tells.bind`, `SessionM.Prints.bind`: Such programs may be put together.
* `renderFile_run_of_read`: Drawing a file that can be read, in any settings.
* `renderFile_run`, `dumpFile_run`, `handleFile_run`: Working on a file, as a function of
  the disk.
* `Session.run_of_parse`: A run works on its files in order.
* `Session.run_of_misuse`: A run that is asked for nothing does nothing.
* `Session.run_render`: A run without output options visits its files.
-/

namespace SourceTexture

namespace SessionM

/-- A program that ends with a result whatever the session it begins with, and
    changes nothing but the notes. -/
def Tells {α : Type} (program : SessionM α) (a : α) : Prop :=
  ∀ s : Session, ∃ notes, program.run s = (a, { s with notes := notes })

section

variable {α β : Type}

theorem run_bind {program : SessionM α} {s s' : Session} {a : α} (next : α → SessionM β)
    (h : program.run s = (a, s')) : (program >>= next).run s = (next a).run s' := by
  rw [StateT.run_bind, h]
  rfl

namespace Tells

theorem pure (a : α) : Tells (Pure.pure a) a :=
  fun s => ⟨s.notes, rfl⟩

/-- Programs that only tell may be put together, and still only tell. -/
theorem bind {program : SessionM α} {a : α} {next : α → SessionM β} {b : β}
    (h : Tells program a) (h' : Tells (next a) b) : Tells (program >>= next) b := by
  intro s
  rcases h s with ⟨notes, hrun⟩
  rcases h' { s with notes := notes } with ⟨notes', hrun'⟩
  refine ⟨notes', ?_⟩
  rw [run_bind next hrun]
  exact hrun'

end Tells

end

/-- Lines as they are printed. -/
def printed (lines : List String) : List Char :=
  lines.flatMap fun line => line.toList ++ ['\n']

theorem printed_append (front back : List String) :
    printed (front ++ back) = printed front ++ printed back :=
  List.flatMap_append

/-- A program that ends with a result whatever the session it begins with, prints lines
    of results, and changes nothing else but the notes. -/
def Prints {α : Type} (program : SessionM α) (a : α) (lines : List String) : Prop :=
  ∀ s : Session, ∃ notes, program.run s =
    (a, { s with results := s.results ++ String.ofList (printed lines), notes := notes })

/-- Telling is printing no lines. -/
theorem Tells.prints {α : Type} {program : SessionM α} {a : α} (h : Tells program a) :
    Prints program a [] := by
  intro s
  rcases h s with ⟨notes, hrun⟩
  refine ⟨notes, ?_⟩
  rw [hrun, printed, List.flatMap_nil, String.ofList_nil, String.append_empty]

/-- Programs that print are put together with their lines. -/
theorem Prints.bind {α β : Type} {program : SessionM α} {a : α} {front back : List String}
    {next : α → SessionM β} {b : β} (h : Prints program a front) (h' : Prints (next a) b back) :
    Prints (program >>= next) b (front ++ back) := by
  intro s
  rcases h s with ⟨notes, hrun⟩
  rcases h' { s with results := s.results ++ String.ofList (printed front), notes := notes } with
    ⟨notes', hrun'⟩
  refine ⟨notes', ?_⟩
  rw [run_bind next hrun, hrun', printed_append, String.ofList_append, String.append_assoc]

/-- A line that is said is printed. -/
theorem prints_say (line : String) : Prints (Host.say line) () [line] := by
  intro s
  refine ⟨s.notes, ?_⟩
  have hline : String.ofList (printed [line]) = line ++ "\n" := by
    rw [printed, List.flatMap_singleton, String.ofList_append, String.ofList_toList]
  rw [hline, ← String.append_assoc]
  rfl

theorem prints_forM_say {α : Type} (line : α → String) (xs : List α) :
    Prints (xs.forM fun x => Host.say (line x)) PUnit.unit (xs.map line) := by
  induction xs with
  | nil => exact (Tells.pure PUnit.unit).prints
  | cons x xs ih => exact (prints_say (line x)).bind ih

/-- A record is told or held back, and neither shows anywhere but in the notes. -/
theorem tells_tell (t : Threshold) (r : Record) : Tells (tell t r) () := by
  unfold tell
  split
  · exact fun s => ⟨s.notes ++ r.text, rfl⟩
  · exact Tells.pure ()

/-- A program that is told about before it begins. -/
theorem Tells.after_tell {α : Type} {program : SessionM α} {a : α} (t : Threshold) (r : Record)
    (h : Tells program a) : Tells (tell t r >>= fun _ => program) a := by
  refine (tells_tell t r).bind ?_
  exact h

theorem tells_forM_tell (t : Threshold) (rs : List Record) :
    Tells (rs.forM (tell t)) PUnit.unit := by
  induction rs with
  | nil => exact Tells.pure PUnit.unit
  | cons r rs ih => exact ih.after_tell t r

theorem tells_readText (t : Threshold) (s : Settings) (bytes : List UInt8) :
    Tells (readText t s bytes) (s.fragments (Utf8.decode bytes)) := by
  unfold readText
  exact (tells_forM_tell t _).bind (Tells.pure _)

theorem tells_layOut (t : Threshold) (s : Settings) (fragments : List Fragment) :
    Tells (layOut t s fragments) (s.layoutOf fragments) := by
  unfold layOut
  exact (Tells.pure _).after_tell t _

end SessionM

namespace Disk

/-- The disk after the picture of a layout was written, or why it was not. -/
def drawLayout (d : Disk) (l : Layout) (output : String) : Except Failure Disk :=
  match l.picture .standard with
  | .error e => .error (.render e)
  | .ok image =>
    match d.write output.toList image with
    | .error e => .error (.system e)
    | .ok after => .ok after

/-- The disk after a file was drawn, or why it was not. -/
def draw (d : Disk) (input output : String) : Except Failure Disk :=
  match d.read input.toList with
  | .error e => .error (.system e)
  | .ok bytes =>
    match Settings.fragments {} (Utf8.decode bytes) with
    | .error e => .error (.join e)
    | .ok fragments => d.drawLayout (Settings.layoutOf {} fragments) output

/-- The lines printed about a file with these fragments. -/
def dumpLines (input : String) (fragments : List Fragment) : List String :=
  let layout := Settings.layoutOf {} fragments
  ("== " ++ input) :: (fragments.map Fragment.display
    ++ ["-- " ++ toString layout.boxes.size ++ " boxes, canvas "
      ++ sizeText layout.width layout.height])

/-- The lines printed about a file, or why there are none. -/
def dump (d : Disk) (input : String) : Except Failure (List String) :=
  match d.read input.toList with
  | .error e => .error (.system e)
  | .ok bytes =>
    match Settings.fragments {} (Utf8.decode bytes) with
    | .error e => .error (.join e)
    | .ok fragments => .ok (dumpLines input fragments)

/-- What is left behind when files were worked on. -/
structure Trail where
  /-- The disk afterwards. -/
  disk : Disk
  /-- The lines printed on the way. -/
  lines : List String := []

/-- What working on a file does, or why it fails. -/
def handle (d : Disk) (i : Invocation) (input : String) : Except Failure Trail :=
  match i.command with
  | .dump =>
    match d.dump input with
    | .error e => .error e
    | .ok lines => .ok ⟨d, lines⟩
  | .render =>
    if isJavaSource input then
      match d.draw input (i.output.getD (defaultOutput input)) with
      | .error e => .error e
      | .ok after => .ok { disk := after }
    else .ok { disk := d }

/-- Whether working on a file succeeds, and what it leaves. A failure leaves
    nothing. -/
def pass (d : Disk) (i : Invocation) (input : String) : Bool × Trail :=
  match d.handle i input with
  | .error _ => (false, { disk := d })
  | .ok trail => (true, trail)

/-- On which of several files work succeeds, and what is left in the end. -/
def passes (d : Disk) (i : Invocation) : List String → List Bool × Trail
  | [] => ([], { disk := d })
  | input :: inputs =>
    let (done, first) := d.pass i input
    let (others, rest) := first.disk.passes i inputs
    (done :: others, ⟨rest.disk, first.lines ++ rest.lines⟩)

/-- Whether rendering a file succeeds, and the disk it leaves. -/
def visit (d : Disk) (input : String) : Bool × Disk :=
  if isJavaSource input then
    match d.draw input (defaultOutput input) with
    | .error _ => (false, d)
    | .ok after => (true, after)
  else (true, d)

/-- Which of several files are rendered without a failure, and the disk that is left
    in the end. -/
def visits (d : Disk) : List String → List Bool × Disk
  | [] => ([], d)
  | input :: inputs =>
    let (done, after) := d.visit input
    let (others, last) := after.visits inputs
    (done :: others, last)

/-- A visit is a pass that draws next to the source, and prints nothing. -/
theorem pass_render (d : Disk) (files : List String) (input : String) :
    d.pass ⟨.render, files, none⟩ input
      = ((d.visit input).1, { disk := (d.visit input).2 }) := by
  unfold pass handle visit
  simp only [Option.getD_none]
  -- Files that are no sources are passed over by both.
  by_cases hjava : isJavaSource input = true
  · simp only [if_pos hjava]
    cases d.draw input (defaultOutput input) with
    | error e => rfl
    | ok after => rfl
  · simp only [if_neg hjava]

/-- Visiting files in turn is passing them in turn. -/
theorem passes_render (d : Disk) (files inputs : List String) :
    d.passes ⟨.render, files, none⟩ inputs
      = ((d.visits inputs).1, { disk := (d.visits inputs).2 }) := by
  induction inputs generalizing d with
  | nil => rfl
  | cons input inputs ih =>
      simp only [passes, pass_render, ih, visits, List.append_nil]

end Disk

/-- A session after something was left behind, with new notes. -/
def Session.after (s : Session) (trail : Disk.Trail) (notes : String) : Session :=
  ⟨trail.disk, s.results ++ String.ofList (SessionM.printed trail.lines), notes⟩

namespace SessionM

variable {path : String} {image : Image} {s : Session}

theorem run_write_of_error {e : SystemError} (h : s.disk.write path.toList image = .error e) :
    (Host.write path image : SessionM (Except SystemError Unit)).run s = (.error e, s) := by
  simp only [Host.write, StateT.run_bind, StateT.run_get, pure_bind, h, StateT.run_pure]
  rfl

theorem run_write_of_ok {after : Disk} (h : s.disk.write path.toList image = .ok after) :
    (Host.write path image : SessionM (Except SystemError Unit)).run s
      = (.ok (), { s with disk := after }) := by
  simp only [Host.write, StateT.run_bind, StateT.run_get, pure_bind, h, StateT.run_pure]
  rfl

end SessionM

/-- Drawing a file that can be read, in any settings. If there is a picture it is written,
    and otherwise nothing is. What is told on the way goes to the notes. -/
theorem renderFile_run_of_read (t : Threshold) (settings : Settings) (input output : String)
    {s : Session} {bytes : List UInt8} (hread : s.disk.read input.toList = .ok bytes) :
    ∃ notes, (renderFile t settings input output : SessionM (Except Failure Unit)).run s =
      match settings.fragments (Utf8.decode bytes) with
      | .error e => (.error (.join e), { s with notes := notes })
      | .ok fragments =>
        match (settings.layoutOf fragments).picture settings.palette with
        | .error e => (.error (.render e), { s with notes := notes })
        | .ok image =>
          match s.disk.write output.toList image with
          | .error e => (.error (.system e), { s with notes := notes })
          | .ok after => (.ok (), { s with disk := after, notes := notes }) := by
  unfold renderFile
  have hrun : (Host.read input : SessionM _).run s = (.ok bytes, s) := by
    rw [← hread]
    rfl
  rcases SessionM.tells_readText t settings bytes s with ⟨notes, htext⟩
  rw [SessionM.run_bind _ hrun]
  simp only
  rw [SessionM.run_bind _ htext]
  cases settings.fragments (Utf8.decode bytes) with
  | error e => exact ⟨notes, rfl⟩
  | ok fragments =>
      rcases SessionM.tells_layOut t settings fragments { s with notes := notes } with
        ⟨notes₁, hlayout⟩
      simp only
      rw [SessionM.run_bind _ hlayout]
      cases (settings.layoutOf fragments).picture settings.palette with
      | error e => exact ⟨notes₁, rfl⟩
      | ok image =>
          simp only
          cases hwrite : s.disk.write output.toList image with
          | error e =>
              rw [SessionM.run_bind _ (@SessionM.run_write_of_error output image
                { s with notes := notes₁ } e hwrite)]
              exact ⟨notes₁, rfl⟩
          | ok after =>
              rw [SessionM.run_bind _ (@SessionM.run_write_of_ok output image
                { s with notes := notes₁ } after hwrite)]
              -- All that remains is to tell about the picture.
              exact (((SessionM.Tells.pure _).after_tell t _).after_tell t _)
                { s with disk := after, notes := notes₁ }

/-- Drawing a file on a system in memory draws it on the disk. What is told on the way
    goes to the notes, whatever the threshold. -/
theorem renderFile_run (t : Threshold) (input output : String) (s : Session) :
    ∃ notes, (renderFile t {} input output : SessionM (Except Failure Unit)).run s =
      match s.disk.draw input output with
      | .error e => (.error e, { s with notes := notes })
      | .ok after => (.ok (), { s with disk := after, notes := notes }) := by
  unfold Disk.draw Disk.drawLayout
  cases hread : s.disk.read input.toList with
  | error e =>
      have hrun : (Host.read input : SessionM _).run s = (.error e, s) := by
        rw [← hread]
        rfl
      -- What cannot be read is not even told about.
      unfold renderFile
      rw [SessionM.run_bind _ hrun]
      exact ⟨s.notes, rfl⟩
  | ok bytes =>
      rcases renderFile_run_of_read t {} input output hread with ⟨notes, hrun⟩
      refine ⟨notes, ?_⟩
      rw [hrun]
      simp only
      cases Settings.fragments {} (Utf8.decode bytes) with
      | error e => rfl
      | ok fragments =>
          simp only
          cases (Settings.layoutOf {} fragments).picture .standard with
          | error e => rfl
          | ok image =>
              simp only
              cases s.disk.write output.toList image with
              | error e => rfl
              | ok after => rfl

/-- Dumping a file on a system in memory prints lines that are settled by the disk, and
    leaves the disk as it was. -/
theorem dumpFile_run (t : Threshold) (input : String) (s : Session) :
    ∃ notes, (dumpFile t {} input : SessionM (Except Failure Unit)).run s =
      match s.disk.dump input with
      | .error e => (.error e, { s with notes := notes })
      | .ok lines => (.ok (), s.after ⟨s.disk, lines⟩ notes) := by
  unfold dumpFile Disk.dump
  have hread : (Host.read input : SessionM _).run s = (s.disk.read input.toList, s) := rfl
  rw [SessionM.run_bind _ hread]
  cases s.disk.read input.toList with
  | error e => exact ⟨s.notes, rfl⟩
  | ok bytes =>
      rcases SessionM.tells_readText t {} bytes s with ⟨notes, htext⟩
      simp only
      rw [SessionM.run_bind _ htext]
      cases Settings.fragments {} (Utf8.decode bytes) with
      | error e => exact ⟨notes, rfl⟩
      | ok fragments =>
          -- From here on everything is printed or told.
          refine (show SessionM.Prints _ (.ok () : Except Failure Unit)
            (Disk.dumpLines input fragments) from ?_) { s with notes := notes }
          refine (SessionM.prints_say _).bind ?_
          refine (SessionM.prints_forM_say Fragment.display fragments).bind ?_
          refine (SessionM.tells_layOut t {} fragments).prints.bind ?_
          exact (SessionM.prints_say _).bind (SessionM.Tells.pure _).prints

/-- Working on a file on a system in memory does what is settled by the disk. -/
theorem handleFile_run (t : Threshold) (i : Invocation) (input : String) (s : Session) :
    ∃ notes, (handleFile t {} i input : SessionM (Except Failure Unit)).run s =
      match s.disk.handle i input with
      | .error e => (.error e, { s with notes := notes })
      | .ok trail => (.ok (), s.after trail notes) := by
  unfold handleFile Disk.handle
  cases i.command with
  | dump =>
      rcases dumpFile_run t input s with ⟨notes, hrun⟩
      refine ⟨notes, ?_⟩
      simp only
      rw [hrun]
      cases s.disk.dump input with
      | error e => rfl
      | ok lines => rfl
  | render =>
      simp only
      by_cases hjava : isJavaSource input = true
      · simp only [if_pos hjava]
        rcases renderFile_run t input (i.output.getD (defaultOutput input)) s with ⟨notes, hrun⟩
        rw [hrun]
        cases s.disk.draw input (i.output.getD (defaultOutput input)) with
        | error e => exact ⟨notes, rfl⟩
        | ok after =>
            -- Drawing prints no lines, which is printing none.
            exact (SessionM.Tells.pure _).prints { s with disk := after, notes := notes }
      · simp only [if_neg hjava]
        exact ((SessionM.Tells.pure _).after_tell t _).prints s

/-- What an attempt at a file does is a pass. -/
theorem attempt_run (t : Threshold) (i : Invocation) (input : String) (s : Session) :
    ∃ notes, (attempt t {} i input : SessionM Bool).run s =
      ((s.disk.pass i input).1, s.after (s.disk.pass i input).2 notes) := by
  rcases handleFile_run t i input s with ⟨notes, hrun⟩
  unfold attempt Disk.pass
  cases hhandle : s.disk.handle i input with
  | error e =>
      simp only [hhandle] at hrun
      rw [SessionM.run_bind _ hrun]
      -- A failure is told about, and has printed nothing.
      exact ((SessionM.Tells.pure false).after_tell t _).prints { s with notes := notes }
  | ok trail =>
      simp only [hhandle] at hrun
      rw [SessionM.run_bind _ hrun]
      exact ⟨notes, rfl⟩

/-- Attempts at several files are their passes. -/
theorem mapM_attempt_run (t : Threshold) (i : Invocation) (inputs : List String) (s : Session) :
    ∃ notes, (inputs.mapM (attempt t {} i) : SessionM (List Bool)).run s =
      ((s.disk.passes i inputs).1, s.after (s.disk.passes i inputs).2 notes) := by
  -- Every attempt hands the disk of its pass on to the next.
  induction inputs generalizing s with
  | nil => exact (SessionM.Tells.pure []).prints s
  | cons input inputs ih =>
      rcases attempt_run t i input s with ⟨notes, hfirst⟩
      rcases ih (s.after (s.disk.pass i input).2 notes) with ⟨notes', hothers⟩
      refine ⟨notes', ?_⟩
      rw [List.mapM_cons, SessionM.run_bind _ hfirst, SessionM.run_bind _ hothers]
      simp only [Disk.passes, Session.after, SessionM.printed_append, String.ofList_append,
        String.append_assoc]
      rfl

/-- A run that is asked for something works on its files in order. -/
theorem Session.run_of_parse (s : Session) (t : Threshold) {args : List String} {i : Invocation}
    (h : Invocation.parse args = .ok i) :
    ∃ notes, s.run t args =
      (if (s.disk.passes i i.files).1.all id then .success else .failure,
        s.after (s.disk.passes i i.files).2 notes) := by
  unfold run runProgram
  rw [h]
  rcases mapM_attempt_run t i i.files s with ⟨notes, hrun⟩
  simp only
  rw [SessionM.run_bind _ hrun]
  exact ⟨notes, rfl⟩

/-- A run that is asked for nothing explains itself and does nothing. -/
theorem Session.run_of_misuse (s : Session) (t : Threshold) {args : List String} {e : UsageError}
    (h : Invocation.parse args = .error e) :
    ∃ notes, s.run t args = (.misuse, { s with notes := notes }) := by
  -- The explanation goes to the notes, line by line.
  have hexplains (lines : List String) : SessionM.Tells
      (lines.forM fun line => Host.note (line ++ "\n")) PUnit.unit := by
    induction lines with
    | nil => exact SessionM.Tells.pure PUnit.unit
    | cons line lines ih =>
        have hnote : SessionM.Tells (Host.note (line ++ "\n")) () :=
          fun s => ⟨s.notes ++ (line ++ "\n"), rfl⟩
        exact hnote.bind ih
  unfold run runProgram
  rw [h]
  exact ((hexplains e.lines).bind (SessionM.Tells.pure Exit.misuse)) s

/-- Rendering files without further options asks for just that. -/
theorem Invocation.parse_render {files : List String} (hfiles : files ≠ [])
    (h : ∀ f ∈ files, f ≠ "-o" ∧ f ≠ "--output") :
    parse ("render" :: files) = .ok ⟨.render, files, none⟩ := by
  have hreads : Arguments.Reads files files [] :=
    Arguments.reads_of_plain fun f hf => not_or.mpr (h f hf)
  rw [parse_of_reads (by decide) hreads, if_neg hfiles, if_neg fun h => h.1 rfl]
  rfl

/-- A run without output options visits its files in order. -/
theorem Session.run_render (s : Session) (t : Threshold) {files : List String}
    (hfiles : files ≠ []) (h : ∀ f ∈ files, f ≠ "-o" ∧ f ≠ "--output") :
    (s.run t ("render" :: files)).1
        = (if (s.disk.visits files).1.all id then .success else .failure) ∧
      (s.run t ("render" :: files)).2.disk = (s.disk.visits files).2 := by
  rcases s.run_of_parse t (Invocation.parse_render hfiles h) with ⟨notes, hrun⟩
  rw [hrun, s.disk.passes_render]
  exact ⟨rfl, rfl⟩

end SourceTexture
