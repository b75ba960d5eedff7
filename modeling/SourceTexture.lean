import SourceTexture.Main
import SourceTexture.Proofs.Fragment.Reference
import SourceTexture.Proofs.Fragment.Conservation
import SourceTexture.Proofs.Fragment.WordKinds
import SourceTexture.Proofs.Picture.Pixels
import SourceTexture.Proofs.Fragment.Isolation
import SourceTexture.Proofs.Fragment.NormalText
import SourceTexture.Proofs.Fragment.Spelling
import SourceTexture.Proofs.Fragment.SpellingRules
import SourceTexture.Proofs.Fragment.Shapes
import SourceTexture.Proofs.Picture.Stacking
import SourceTexture.Proofs.Picture.Appending
import SourceTexture.Proofs.Picture.SamePicture
import SourceTexture.Proofs.CommandLine.Places
import SourceTexture.Proofs.Picture.Seams
import SourceTexture.Proofs.Picture.Separation
import SourceTexture.Proofs.Picture.Exactness
import SourceTexture.Proofs.Picture.Uppermost
import SourceTexture.Proofs.Picture.Overflow
import SourceTexture.Proofs.CommandLine.Effects
import SourceTexture.Proofs.CommandLine.Frame
import SourceTexture.Proofs.CommandLine.Outcomes
import SourceTexture.Proofs.CommandLine.Independence
import SourceTexture.Proofs.Fragment.Canonical
import SourceTexture.Proofs.Text.Encoding
import SourceTexture.Proofs.CommandLine.ExitCodes
import SourceTexture.Proofs.Text.Quoting
import SourceTexture.Proofs.CommandLine.Dump
import SourceTexture.Proofs.Fragment.HeldText
import SourceTexture.Proofs.Picture.Bounds
import SourceTexture.Proofs.Picture.Recolouring
import SourceTexture.Proofs.CommandLine.NothingToDraw
