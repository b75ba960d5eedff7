import SourceTexture.Picture.Image

/-!
# PNG files

An image as the bytes of a file other programs can open.

The file holds three chunks: the header, the pixels and the end mark. Pixels are
stored row by row without filtering, three bytes each, in a compressed stream
whose blocks are all of the stored kind. That makes the file larger than it
could be and keeps the way back to the pixels obvious.

## Main definitions

* `Png.crc32`: The checksum of a chunk.
* `Png.adler32`: The checksum of the pixel stream.
* `Png.chunk`: A chunk with its length and checksum.
* `Image.toPng`: The file of an image.
-/

namespace SourceTexture

namespace Png

/-- A number as four bytes, the most significant first. -/
def word (n : UInt32) : ByteArray :=
  ⟨#[(n >>> 24).toUInt8, (n >>> 16).toUInt8, (n >>> 8).toUInt8, n.toUInt8]⟩

/-- A number below 65536 as two bytes, the least significant first. -/
def shortWord (n : Nat) : ByteArray :=
  ⟨#[n.toUInt8, (n / 256).toUInt8]⟩

/-- One division step of the checksum. -/
def crcStep (c : UInt32) : UInt32 :=
  if c &&& 1 = 1 then (c >>> 1) ^^^ 0xEDB88320 else c >>> 1

/-- The checksum with one more byte taken in. -/
def crcByte (c : UInt32) (b : UInt8) : UInt32 :=
  Nat.repeat crcStep 8 (c ^^^ b.toUInt32)

/-- The cyclic redundancy check of a chunk. -/
def crc32 (bytes : ByteArray) : UInt32 :=
  bytes.foldl crcByte 0xFFFFFFFF ^^^ 0xFFFFFFFF

/-- The sum that guards the pixel stream. -/
def adler32 (bytes : ByteArray) : UInt32 :=
  let (a, b) := bytes.foldl
    (fun (a, b) byte =>
      let a := (a + byte.toUInt32) % 65521
      (a, (b + a) % 65521))
    ((1, 0) : UInt32 × UInt32)
  b <<< 16 ||| a

/-- A chunk: its length, its name, its contents, and a checksum of the last
    two. -/
def chunk (name : String) (data : ByteArray) : ByteArray :=
  let body := name.toUTF8 ++ data
  word data.size.toUInt32 ++ body ++ word (crc32 body)

/-- The longest stored block. -/
def blockLimit : Nat := 65535

/-- Bytes from `start` on as stored blocks, `blocks` full ones and a last one. -/
def storedBlocks (bytes : ByteArray) (start : Nat) : Nat → ByteArray
  | 0 =>
    let rest := bytes.extract start bytes.size
    ⟨#[1]⟩ ++ shortWord rest.size ++ shortWord (blockLimit - rest.size) ++ rest
  | blocks + 1 =>
    ⟨#[0]⟩ ++ shortWord blockLimit ++ shortWord 0
      ++ bytes.extract start (start + blockLimit)
      ++ storedBlocks bytes (start + blockLimit) blocks

/-- Bytes as a stream of stored blocks. -/
def stored (bytes : ByteArray) : ByteArray :=
  ⟨#[0x78, 0x01]⟩ ++ storedBlocks bytes 0 (bytes.size / blockLimit) ++ word (adler32 bytes)

/-- The bytes with those of a row added: the mark of an unfiltered row, and three
    bytes for each pixel. -/
def row (bytes : ByteArray) (pixels : Array Color) : ByteArray :=
  pixels.foldl (fun bytes c => ((bytes.push c.red).push c.green).push c.blue) (bytes.push 0)

/-- The bytes every file begins with. -/
def signature : ByteArray :=
  ⟨#[0x89, 0x50, 0x4E, 0x47, 0x0D, 0x0A, 0x1A, 0x0A]⟩

/-- The header: the size, and three colours of eight bits to a pixel. -/
def header (width height : Extent) : ByteArray :=
  word width.val.toUInt32 ++ word height.val.toUInt32 ++ ⟨#[8, 2, 0, 0, 0]⟩

end Png

/-- The file of an image. -/
def Image.toPng (image : Image) : ByteArray :=
  Png.signature ++ Png.chunk "IHDR" (Png.header image.width image.height)
    ++ Png.chunk "IDAT" (Png.stored (image.rows.foldl Png.row ⟨#[]⟩)) ++ Png.chunk "IEND" ⟨#[]⟩

end SourceTexture
