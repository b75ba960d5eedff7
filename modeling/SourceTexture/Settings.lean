import SourceTexture.Fragment.Condensed
import SourceTexture.Fragment.Scanner
import SourceTexture.Fragment.Vocabulary
import SourceTexture.Picture.Layout

/-!
# Settings

From a text to its layout, under a choice of measures, colours and words.

A reading of a text holds the fragments of all three stages: as they were
scanned, with their kinds settled, and condensed. The last are the fragments of
the text; the earlier ones are kept because what happened on the way is worth
reporting. Only the last stage has an error to report, the refusal of a join.

## Main definitions

* `Settings`: Measures, colours and words.
* `Reading`: The fragments of a text, stage by stage.
* `Settings.read`: The reading of a text.
* `Settings.fragments`: The condensed fragments of a text.
* `Settings.layout`: The layout of a text.
-/

namespace SourceTexture

/-- What the picture of a text depends on besides the text. -/
structure Settings where
  /-- The measures. -/
  geometry : Geometry := {}
  /-- The colours. -/
  palette : Palette := .standard
  /-- The words with a meaning of their own. -/
  vocabulary : Vocabulary := .java

/-- The fragments of a text, stage by stage. -/
structure Reading where
  /-- As they were scanned, words undefined. -/
  raw : List Fragment
  /-- With their kinds settled. -/
  classified : List Fragment
  /-- With neighbours of one kind joined. -/
  condensed : Except JoinError (List Fragment)

namespace Settings

/-- The reading of a text. -/
def read (s : Settings) (text : List Char) : Reading :=
  let raw := Fragment.scan text
  let classified := raw.map s.vocabulary.resolve
  ⟨raw, classified, Fragment.condense classified⟩

/-- The condensed fragments of a text. -/
def fragments (s : Settings) (text : List Char) : Except JoinError (List Fragment) :=
  (s.read text).condensed

/-- The layout of a list of fragments in these measures and colours. -/
def layoutOf (s : Settings) (fragments : List Fragment) : Layout :=
  Layout.ofFragments s.geometry s.palette fragments

/-- The layout of a text. -/
def layout (s : Settings) (text : List Char) : Except JoinError Layout := do
  return s.layoutOf (← s.fragments text)

end Settings

end SourceTexture
