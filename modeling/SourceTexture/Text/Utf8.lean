/-!
# UTF-8

Reading bytes as text when some of them may be wrong.

A decoder takes one byte at a time. Between characters it waits for a first
byte, which says how many continuation bytes follow and, for a few values, in
which narrower range the next one has to lie: that rules out spellings longer
than needed, surrogates, and numbers past the last code point as early as
possible. A byte that cannot continue the character begun ends it, and is read
again as a first byte.

Whatever cannot be completed is replaced by one replacement character: the bytes
of a character broken off count together, as they are the longest beginning of
a valid sequence, and a byte that begins nothing counts alone.

## Main definitions

* `Utf8.Decoder`: What a decoder waits for.
* `Utf8.Decoder.push`: The characters a byte completes, and the decoder after
  it.
* `Utf8.decode`: The text that bytes spell.

## Theorems

* `Utf8.Decoder.feed_cons`: Feeding is pushing in turn.
-/

namespace SourceTexture

namespace Utf8

/-- What stands for bytes that spell no character. -/
def replacement : Char := '\uFFFD'

/-- What a decoder waits for. -/
inductive Decoder where
  /-- The first byte of a character. -/
  | start
  /-- A continuation byte between `low` and `high`, and then `more` others of
      any value. The character begun so far is numbered `code`. -/
  | inside (code more low high : Nat)
  deriving DecidableEq

namespace Decoder

/-- A first byte: the character it is, or what it asks for. -/
def begin (b : Nat) : List Char × Decoder :=
  if b < 0x80 then ([Char.ofNat b], start)
  -- Two bytes. C0 and C1 would only spell what one byte spells.
  else if 0xC2 ≤ b ∧ b ≤ 0xDF then ([], inside (b - 0xC0) 0 0x80 0xBF)
  -- Three bytes. E0 must not spell what two bytes spell, and ED no surrogate.
  else if b = 0xE0 then ([], inside 0 1 0xA0 0xBF)
  else if b = 0xED then ([], inside 0xD 1 0x80 0x9F)
  else if 0xE1 ≤ b ∧ b ≤ 0xEF then ([], inside (b - 0xE0) 1 0x80 0xBF)
  -- Four bytes. F0 must not spell what three bytes spell, and F4 is the last
  -- that reaches a code point.
  else if b = 0xF0 then ([], inside 0 2 0x90 0xBF)
  else if b = 0xF4 then ([], inside 4 2 0x80 0x8F)
  else if 0xF1 ≤ b ∧ b ≤ 0xF3 then ([], inside (b - 0xF0) 2 0x80 0xBF)
  else ([replacement], start)

/-- The characters a byte completes, and the decoder after it. -/
def push (d : Decoder) (b : Nat) : List Char × Decoder :=
  match d with
  | start => begin b
  | inside code more low high =>
    if low ≤ b ∧ b ≤ high then
      let code := code * 64 + (b - 0x80)
      match more with
      | 0 => ([Char.ofNat code], start)
      | more + 1 => ([], inside code more 0x80 0xBF)
    else
      -- The character begun is broken off, and this byte may begin another.
      let (text, next) := begin b
      (replacement :: text, next)

/-- What is left over when the bytes end: a character broken off. -/
def finish : Decoder → List Char
  | start => []
  | inside .. => [replacement]

/-- Feeds bytes, putting the characters they complete in front of `done`, latest
    first. -/
def feedOnto (done : List Char) (d : Decoder) : List UInt8 → List Char × Decoder
  | [] => (done, d)
  | b :: bytes => feedOnto ((d.push b.toNat).1.reverse ++ done) (d.push b.toNat).2 bytes

/-- The characters the bytes complete, in order, and the decoder after them. -/
def feed (d : Decoder) (bytes : List UInt8) : List Char × Decoder :=
  let (done, next) := feedOnto [] d bytes
  (done.reverse, next)

/-- The characters of the new bytes come on top of those decoded before, the last one
    first. -/
theorem feedOnto_eq (done : List Char) (d : Decoder) (bytes : List UInt8) :
    feedOnto done d bytes = ((d.feed bytes).1.reverse ++ done, (d.feed bytes).2) := by
  induction bytes generalizing done d with
  | nil => rfl
  | cons b bytes ih =>
      simp only [feed, feedOnto]
      rw [ih, ih ((d.push b.toNat).1.reverse ++ [])]
      simp only [List.append_nil, List.reverse_append, List.reverse_reverse, List.append_assoc]

@[simp] theorem feed_nil (d : Decoder) : d.feed [] = ([], d) := rfl

/-- Feeding is pushing the bytes in turn. -/
theorem feed_cons (d : Decoder) (b : UInt8) (bytes : List UInt8) :
    d.feed (b :: bytes) =
      ((d.push b.toNat).1 ++ ((d.push b.toNat).2.feed bytes).1,
        ((d.push b.toNat).2.feed bytes).2) := by
  rw [feed, feedOnto, feedOnto_eq]
  simp only [List.append_nil, List.reverse_append, List.reverse_reverse]

end Decoder

/-- The text that bytes spell, with one replacement character for every longest
    beginning of a character that is not completed, and for every byte that
    begins none. -/
def decode (bytes : List UInt8) : List Char :=
  let (text, last) := Decoder.feed .start bytes
  text ++ last.finish

end Utf8

end SourceTexture
