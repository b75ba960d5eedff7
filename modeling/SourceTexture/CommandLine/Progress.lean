import SourceTexture.CommandLine.Log
import SourceTexture.Settings

/-!
# Progress

What is told about the stages a text goes through.

Scanning tells every fragment it had to gather. Line breaks and blanks are
handed out the moment they are seen, and nothing is told about them: they can
be recognised by what they hold, since gathered text outside literals never
holds a blank. The later stages each tell how much they found.

## Main definitions

* `Fragment.isGathered`: Whether a raw fragment was gathered.
* `Reading.records`: What is told about a reading.
* `Layout.record`: What is told about a layout.
-/

namespace SourceTexture

/-- Whether a raw fragment was gathered character by character, as opposed to
    handed out the moment it was seen. -/
def Fragment.isGathered (f : Fragment) : Bool :=
  match f.kind with
  | .lineFeed | .space => false
  | .lineComment | .blockComment => !f.content.all (· = ' ')
  | _ => true

/-- What is told about a raw fragment. -/
def Fragment.record (f : Fragment) : Record :=
  ⟨.trace, "javaxray::lexer",
    "fragment " ++ f.kind.name ++ ": " ++ String.ofList (quoted f.content)⟩

/-- What is told about a reading: the fragments that were gathered, and how many
    there were after each stage that succeeded. -/
def Reading.records (r : Reading) : List Record :=
  (r.raw.filter Fragment.isGathered).map Fragment.record ++
    [⟨.debug, "javaxray::converter", "lexed " ++ toString r.raw.length ++ " fragments"⟩,
      ⟨.debug, "javaxray::classifier",
        "classified " ++ toString r.classified.length ++ " fragments, "
          ++ toString (r.classified.countP (·.kind = .undefined)) ++ " unresolved"⟩] ++
    match r.condensed with
    | .error _ => []
    | .ok condensed =>
      [⟨.debug, "javaxray::merger",
        "merged " ++ toString r.classified.length ++ " fragments into "
          ++ toString condensed.length⟩]

/-- A size as it is printed. -/
def sizeText (width height : Extent) : String :=
  toString width.val ++ "x" ++ toString height.val

/-- What is told about the layout of fragments. -/
def Layout.record (l : Layout) (fragments : List Fragment) : Record :=
  ⟨.debug, "javaxray::layout",
    "laid out " ++ toString l.boxes.size ++ " boxes over " ++ toString (rowCount fragments).val
      ++ " rows, canvas " ++ sizeText l.width l.height⟩

end SourceTexture
