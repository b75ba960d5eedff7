import SourceTexture.CommandLine.Disk

/-!
# Hosts

What the program needs from the system it runs on, and a system in memory.

The command line reads files, writes pictures and prints text to two places.
It is written against these four operations alone, so the same program runs on
a real system and on a `Session`, where everything it did can be looked at
afterwards.

## Main definitions

* `Host`: The four operations.
* `Session`: A disk, and what was printed.
* `SessionM`: Programs that run on a session.
-/

namespace SourceTexture

/-- What the program needs from the system it runs on. -/
class Host (m : Type → Type) where
  /-- The bytes of a file. -/
  read : String → m (Except SystemError (List UInt8))
  /-- Writes a picture to a file. -/
  write : String → Image → m (Except SystemError Unit)
  /-- Prints a line of results. -/
  say : String → m Unit
  /-- Prints a text about the work itself. It brings its own line breaks. -/
  note : String → m Unit

/-- A system in memory: a disk, and the text printed so far. -/
structure Session where
  /-- The directories and files. -/
  disk : Disk
  /-- The results printed so far. -/
  results : String := ""
  /-- What was told about the work so far. -/
  notes : String := ""

/-- Programs that run on a session. -/
abbrev SessionM := StateM Session

instance : Host SessionM where
  read path := return (← get).disk.read path.toList
  write path image := do
    let s ← get
    match s.disk.write path.toList image with
    | .ok disk =>
      set { s with disk := disk }
      return .ok ()
    | .error e => return .error e
  say line := modify fun s => { s with results := s.results ++ line ++ "\n" }
  note text := modify fun s => { s with notes := s.notes ++ text }

end SourceTexture
