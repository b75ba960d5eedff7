import SourceTexture.Fragment.Kind

/-!
# Palettes

Which colour stands for which kind of text.

A palette is a colour for every kind and one for the background. The default is
the colouring Java programmers know from their editor, on white, with one
exception: text that could not be resolved is magenta, so that it stands out.

## Main definitions

* `Color`: An sRGB colour.
* `Palette`: A colour per kind and a background.
* `Palette.standard`: The default colours.
* `Palette.withColor`: A palette with the colour of one kind replaced.
* `Palette.withBackground`: A palette with the background replaced.

## Theorems

* `Palette.color_withColor`: Replacing one colour leaves the others alone.
-/

namespace SourceTexture

/-- An sRGB colour. -/
structure Color where
  /-- Share of red. -/
  red : UInt8
  /-- Share of green. -/
  green : UInt8
  /-- Share of blue. -/
  blue : UInt8
  deriving DecidableEq

namespace Color

/-- No light at all. -/
def black : Color := ⟨0, 0, 0⟩

/-- Full light. -/
def white : Color := ⟨255, 255, 255⟩

/-- The green of comments. -/
def comment : Color := ⟨0x3F, 0x7F, 0x5F⟩

/-- The blue of literals and numbers. -/
def literal : Color := ⟨0x2A, 0x00, 0xFF⟩

/-- The purple of words the language reserves. -/
def reserved : Color := ⟨0x7F, 0x00, 0x55⟩

/-- The grey of annotations. -/
def atWord : Color := ⟨0x64, 0x64, 0x64⟩

/-- The magenta of text nothing is known about. -/
def unresolved : Color := ⟨255, 0, 255⟩

end Color

/-- One colour for each kind, and one for the canvas behind them. -/
structure Palette where
  /-- The colour that stands for a kind. -/
  color : Kind → Color
  /-- The colour of the empty canvas. -/
  background : Color

namespace Palette

/-- The default colours, on white. -/
def standard : Palette where
  color
    | .undefined => .unresolved
    | .lineComment | .blockComment => .comment
    | .stringLiteral | .characterLiteral | .numeric => .literal
    | .keyword | .datatype => .reserved
    | .delimiter | .identifier | .symbol => .black
    | .atWord => .atWord
    | .space | .lineFeed => .white
  background := .white

/-- The palette with another colour for one kind. -/
def withColor (p : Palette) (k : Kind) (c : Color) : Palette :=
  { p with color := fun j => if j = k then c else p.color j }

/-- The palette with another background. -/
def withBackground (p : Palette) (c : Color) : Palette :=
  { p with background := c }

/-- Replacing the colour of one kind leaves the others alone, so of several
    replacements the last one for a kind decides. -/
theorem color_withColor (p : Palette) (j k : Kind) (c : Color) :
    (p.withColor k c).color j = if j = k then c else p.color j := rfl

end Palette

end SourceTexture
