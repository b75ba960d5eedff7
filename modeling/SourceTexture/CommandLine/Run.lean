import SourceTexture.CommandLine.Host
import SourceTexture.CommandLine.Invocation
import SourceTexture.CommandLine.Progress
import SourceTexture.Text.Utf8

/-!
# Runs of the program

What the program does with its arguments.

Files are worked on one after the other, and a file that fails does not keep the
next one from its turn; it only shows in the exit code. A picture is written
only after everything else about its file has succeeded, so a file that cannot
be drawn leaves nothing behind.

## Main definitions

* `Exit`: How a run ends.
* `Failure`: Why a file failed.
* `renderFile`: Drawing one file.
* `dumpFile`: Printing the fragments of one file.
* `runProgram`: A run with given arguments.
-/

namespace SourceTexture

/-- How a run ends. -/
inductive Exit where
  /-- Every file succeeded. -/
  | success
  /-- Some file failed. -/
  | failure
  /-- The arguments asked for nothing. -/
  | misuse
  deriving DecidableEq

/-- The code the system is told. -/
def Exit.code : Exit → Nat
  | success => 0
  | failure => 1
  | misuse => 2

/-- Why a file failed. -/
inductive Failure where
  /-- Fragments of different kinds were to be joined. -/
  | join (e : JoinError)
  /-- Reading or writing did. -/
  | system (e : SystemError)
  /-- There is nothing to draw. -/
  | render (e : RenderError)
  deriving DecidableEq

/-- The wording of a failure. -/
def Failure.message : Failure → String
  | join e => e.message
  | system e => e.message
  | render e => e.message

/-- The layout of a file that holds these bytes. Bytes that are no text are
    replaced and end up as unresolved fragments. -/
def Settings.layoutOfBytes (s : Settings) (bytes : List UInt8) : Except JoinError Layout :=
  s.layout (Utf8.decode bytes)

/-- Whether a path ends at a Java source by its name. -/
def isJavaSource (path : String) : Bool :=
  (Path.parse? path.toList).bind Path.extension? = some "java".toList

/-- Where the picture of a source goes if nothing else is said. -/
def defaultOutput (path : String) : String :=
  path ++ ".png"

section

variable {m : Type → Type} [Monad m] [Host m]

/-- Prints a record if the threshold lets it through. -/
def tell (t : Threshold) (r : Record) : m Unit :=
  if t.admits r.level then Host.note r.text else pure ()

/-- Tells about the reading of a text, and returns its fragments. -/
def readText (t : Threshold) (s : Settings) (bytes : List UInt8) :
    m (Except JoinError (List Fragment)) := do
  let reading := s.read (Utf8.decode bytes)
  reading.records.forM (tell t)
  return reading.condensed

/-- Lays fragments out and tells about it. -/
def layOut (t : Threshold) (s : Settings) (fragments : List Fragment) : m Layout := do
  let layout := s.layoutOf fragments
  tell t (layout.record fragments)
  return layout

/-- Draws one file. -/
def renderFile (t : Threshold) (s : Settings) (input output : String) :
    m (Except Failure Unit) := do
  match ← Host.read input with
  | .error e => return .error (.system e)
  | .ok bytes =>
    match ← readText t s bytes with
    | .error e => return .error (.join e)
    | .ok fragments =>
      let layout ← layOut t s fragments
      match layout.picture s.palette with
      | .error e => return .error (.render e)
      | .ok image =>
        match ← Host.write output image with
        | .error e => return .error (.system e)
        | .ok () =>
          let size := sizeText layout.width layout.height
          tell t ⟨.debug, "javaxray::render", "wrote " ++ size ++ " image to " ++ output⟩
          tell t ⟨.info, "javaxray",
            input ++ ": " ++ toString layout.boxes.size ++ " boxes, " ++ size ++ " -> " ++ output⟩
          return .ok ()

/-- Prints the fragments of one file. -/
def dumpFile (t : Threshold) (s : Settings) (input : String) : m (Except Failure Unit) := do
  match ← Host.read input with
  | .error e => return .error (.system e)
  | .ok bytes =>
    match ← readText t s bytes with
    | .error e => return .error (.join e)
    | .ok fragments =>
      Host.say ("== " ++ input)
      fragments.forM fun f => Host.say f.display
      let layout ← layOut t s fragments
      Host.say ("-- " ++ toString layout.boxes.size ++ " boxes, canvas "
        ++ sizeText layout.width layout.height)
      return .ok ()

/-- Works on one file, if it is one the command works on. -/
def handleFile (t : Threshold) (s : Settings) (invocation : Invocation) (input : String) :
    m (Except Failure Unit) := do
  match invocation.command with
  | .dump => dumpFile t s input
  | .render =>
    if isJavaSource input then
      renderFile t s input (invocation.output.getD (defaultOutput input))
    else
      tell t ⟨.warn, "javaxray", input ++ ": not a Java file, skipped"⟩
      return .ok ()

/-- Works on one file and says whether that succeeded. -/
def attempt (t : Threshold) (s : Settings) (invocation : Invocation) (input : String) :
    m Bool := do
  match ← handleFile t s invocation input with
  | .ok () => return true
  | .error e =>
    tell t ⟨.error, "javaxray", input ++ ": " ++ e.message⟩
    return false

/-- Runs the program with the given arguments. -/
def runProgram (t : Threshold) (args : List String) : m Exit :=
  match Invocation.parse args with
  | .error e => do
    e.lines.forM fun line => Host.note (line ++ "\n")
    return .misuse
  | .ok invocation => do
    let outcomes ← invocation.files.mapM (attempt t {} invocation)
    return if outcomes.all id then .success else .failure

end

/-- Runs the program on a system in memory. -/
def Session.run (s : Session) (t : Threshold) (args : List String) : Exit × Session :=
  (runProgram t args : SessionM Exit).run s

end SourceTexture
