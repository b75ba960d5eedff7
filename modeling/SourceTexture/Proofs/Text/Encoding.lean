import SourceTexture.CommandLine.Run
import SourceTexture.Proofs.Fragment.Condensing

/-!
# Bytes that spell a text

A file holds bytes, and what is drawn is the text they spell.

A decoder that stands between characters and is fed the bytes of one hands that
character out and stands between characters again. So it does with a byte that
begins nothing, except that what it hands out is the replacement character. Both
are instances of one relation, that bytes spell a text, and bytes that spell may be
put one behind the other: the decoder keeps nothing from one stretch to the next,
whatever the characters are.

The mark of the encoding is spelled like any other character and is part of the text
that is decoded. It is the scanner that drops it, and it drops one, so a file with a
mark in front gives what its text gives without one.

## Main definitions

* `Utf8.encode`: The bytes of a text.
* `Utf8.Spells`: Bytes that give a text and leave a decoder between characters.
* `Utf8.IsStray`: A byte that begins no character.

## Theorems

* `Utf8.Decoder.feed_append`: Bytes may be fed in two pieces.
* `Utf8.spells_encodeChar`: The bytes of a character spell it.
* `Utf8.spells_stray`: A stray byte spells the replacement character.
* `Utf8.Spells.decode_eq`: What is spelled is what is decoded.
* `Settings.bytes_read_as_text`: A file gives what the text it spells gives.
-/

namespace SourceTexture

namespace Utf8

/-- The bytes of a text. -/
def encode (text : List Char) : List UInt8 :=
  (String.ofList text).toUTF8.data.toList

theorem encode_eq_flatMap (text : List Char) :
    encode text = text.flatMap String.utf8EncodeChar := by
  rw [encode, String.toUTF8, String.toByteArray_ofList, List.utf8Encode,
    List.toList_data_toByteArray]

/-- A byte that begins no character, and so belongs to none where none has been
    begun. -/
def IsStray (b : UInt8) : Prop :=
  0x80 ≤ b.toNat ∧ b.toNat ≤ 0xC1 ∨ 0xF5 ≤ b.toNat

instance (b : UInt8) : Decidable (IsStray b) :=
  inferInstanceAs (Decidable (_ ∨ _))

namespace Decoder

/-- Bytes may be fed in two pieces. -/
theorem feed_append (d : Decoder) (front back : List UInt8) :
    d.feed (front ++ back) =
      ((d.feed front).1 ++ ((d.feed front).2.feed back).1, ((d.feed front).2.feed back).2) := by
  induction front generalizing d with
  | nil => rfl
  | cons b front ih =>
      rw [List.cons_append, feed_cons, feed_cons, ih, List.append_assoc]

/-- A byte that completes nothing only changes what the decoder waits for. -/
theorem feed_of_push {d next : Decoder} {b : UInt8} (h : d.push b.toNat = ([], next))
    (bytes : List UInt8) : d.feed (b :: bytes) = next.feed bytes := by
  rw [feed_cons, h, List.nil_append]

theorem feed_singleton (d : Decoder) (b : UInt8) : d.feed [b] = d.push b.toNat := by
  rw [feed_cons, feed_nil, List.append_nil]

theorem begin_two {b : Nat} (h : 0xC2 ≤ b ∧ b ≤ 0xDF) :
    begin b = ([], inside (b - 0xC0) 0 0x80 0xBF) := by
  rw [begin, if_neg (by omega), if_pos h]

/-- Of three bytes the second is held to what two bytes cannot spell and to what is no
    surrogate. -/
theorem begin_three {b : Nat} (h : 0xE0 ≤ b ∧ b ≤ 0xEF) :
    begin b = ([], inside (b - 0xE0) 1 (if b = 0xE0 then 0xA0 else 0x80)
      (if b = 0xED then 0x9F else 0xBF)) := by
  rw [begin, if_neg (by omega), if_neg (by omega)]
  -- The two first bytes that hold the second one to less are tried in front of the others.
  by_cases hfirst : b = 0xE0
  · rw [hfirst]
    rfl
  · rw [if_neg hfirst, if_neg hfirst]
    by_cases hsurrogate : b = 0xED
    · rw [hsurrogate]
      rfl
    · rw [if_neg hsurrogate, if_neg hsurrogate, if_pos (by omega)]

/-- Of four bytes the second is held to what three bytes cannot spell and to what is a
    code point. -/
theorem begin_four {b : Nat} (h : 0xF0 ≤ b ∧ b ≤ 0xF4) :
    begin b = ([], inside (b - 0xF0) 2 (if b = 0xF0 then 0x90 else 0x80)
      (if b = 0xF4 then 0x8F else 0xBF)) := by
  rw [begin, if_neg (by omega), if_neg (by omega), if_neg (by omega), if_neg (by omega),
    if_neg (by omega)]
  -- Here these are the first and the last of the bytes that begin four.
  by_cases hfirst : b = 0xF0
  · rw [hfirst]
    rfl
  · rw [if_neg hfirst, if_neg hfirst]
    by_cases hlast : b = 0xF4
    · rw [hlast]
      rfl
    · rw [if_neg hlast, if_neg hlast, if_pos (by omega)]

theorem push_more {code more low high b : Nat} (h : low ≤ b ∧ b ≤ high) :
    (inside code (more + 1) low high).push b
      = ([], inside (code * 64 + (b - 0x80)) more 0x80 0xBF) := by
  simp only [push, if_pos h]

theorem push_last {code low high b : Nat} (h : low ≤ b ∧ b ≤ high) :
    (inside code 0 low high).push b = ([Char.ofNat (code * 64 + (b - 0x80))], start) := by
  simp only [push, if_pos h]

section

variable {n : Nat}

theorem toNat_byte (h : n < 256) : (UInt8.ofNat n).toNat = n :=
  UInt8.toNat_ofNat_of_lt' h

theorem feed_one (h : n ≤ 0x7F) : feed start [UInt8.ofNat n] = ([Char.ofNat n], start) := by
  rw [feed_singleton, toNat_byte (by omega), push, begin, if_pos (by omega)]

/-- Two bytes hold five bits and six. Each is marked by what it adds to its bits, and
    reading takes the marks off again. -/
theorem feed_two (h : 0x7F < n ∧ n ≤ 0x7FF) :
    feed start [UInt8.ofNat (n / 64 % 32 + 192), UInt8.ofNat (n % 64 + 128)]
      = ([Char.ofNat n], start) := by
  have hfirst := toNat_byte (n := n / 64 % 32 + 192) (by omega)
  have hlast := toNat_byte (n := n % 64 + 128) (by omega)
  rw [feed_of_push (by rw [hfirst, push, begin_two (by omega)]), feed_singleton, hlast,
    push_last (by omega)]
  -- The bits behind each other are the number.
  have hcode : (n / 64 % 32 + 192 - 0xC0) * 64 + (n % 64 + 128 - 0x80) = n := by omega
  rw [hcode]

/-- Three bytes hold four bits and twice six. The second byte is in the range that the
    first one leaves to it, because the number needs three bytes and is no surrogate. -/
theorem feed_three (h : 0x7FF < n ∧ n ≤ 0xFFFF) (hvalid : n < 0xD800 ∨ 0xDFFF < n) :
    feed start [UInt8.ofNat (n / 4096 % 16 + 224), UInt8.ofNat (n / 64 % 64 + 128),
      UInt8.ofNat (n % 64 + 128)] = ([Char.ofNat n], start) := by
  have hfirst := toNat_byte (n := n / 4096 % 16 + 224) (by omega)
  have hsecond := toNat_byte (n := n / 64 % 64 + 128) (by omega)
  have hlast := toNat_byte (n := n % 64 + 128) (by omega)
  -- The range of the second byte depends on the first, in two cases out of the ordinary.
  rw [feed_of_push (by rw [hfirst, push, begin_three (by omega)]),
    feed_of_push (by rw [hsecond, push_more (by split_ifs <;> omega)]), feed_singleton, hlast,
    push_last (by omega)]
  have hcode : ((n / 4096 % 16 + 224 - 0xE0) * 64 + (n / 64 % 64 + 128 - 0x80)) * 64
      + (n % 64 + 128 - 0x80) = n := by omega
  rw [hcode]

/-- Four bytes hold three bits and three times six. Here the range of the second byte
    keeps out what needs no fourth byte and what lies past the last code point. -/
theorem feed_four (h : 0xFFFF < n ∧ n < 0x110000) :
    feed start [UInt8.ofNat (n / 262144 % 8 + 240), UInt8.ofNat (n / 4096 % 64 + 128),
      UInt8.ofNat (n / 64 % 64 + 128), UInt8.ofNat (n % 64 + 128)]
      = ([Char.ofNat n], start) := by
  have hfirst := toNat_byte (n := n / 262144 % 8 + 240) (by omega)
  have hsecond := toNat_byte (n := n / 4096 % 64 + 128) (by omega)
  have hthird := toNat_byte (n := n / 64 % 64 + 128) (by omega)
  have hlast := toNat_byte (n := n % 64 + 128) (by omega)
  -- Only the second byte is held to a range of its own, and the third
  -- may be any that goes on.
  rw [feed_of_push (by rw [hfirst, push, begin_four (by omega)]),
    feed_of_push (by rw [hsecond, push_more (by split_ifs <;> omega)]),
    feed_of_push (by rw [hthird, push_more (by omega)]), feed_singleton, hlast,
    push_last (by omega)]
  have hcode : (((n / 262144 % 8 + 240 - 0xF0) * 64 + (n / 4096 % 64 + 128 - 0x80)) * 64
      + (n / 64 % 64 + 128 - 0x80)) * 64 + (n % 64 + 128 - 0x80) = n := by omega
  rw [hcode]

end

end Decoder

/-- Bytes that a decoder between characters takes for a text, and behind which it
    stands between characters again. -/
def Spells (bytes : List UInt8) (text : List Char) : Prop :=
  Decoder.start.feed bytes = (text, .start)

theorem Spells.append {front back : List UInt8} {text more : List Char} (h : Spells front text)
    (h' : Spells back more) : Spells (front ++ back) (text ++ more) := by
  rw [Spells, Decoder.feed_append, h, h']

/-- Bytes that spell texts one by one spell all of them in a row, since nothing is left
    open between two of them. -/
theorem Spells.flatMap {α : Type} {bytes : α → List UInt8} {text : α → List Char} {xs : List α}
    (h : ∀ x ∈ xs, Spells (bytes x) (text x)) : Spells (xs.flatMap bytes) (xs.flatMap text) := by
  induction xs with
  | nil => rfl
  | cons x xs ih =>
      rcases List.forall_mem_cons.mp h with ⟨hx, hrest⟩
      rw [List.flatMap_cons, List.flatMap_cons]
      -- A decoder that has spelled one text is as good as new for the next.
      exact hx.append (ih hrest)

/-- What is spelled is what is decoded. -/
theorem Spells.decode_eq {bytes : List UInt8} {text : List Char} (h : Spells bytes text) :
    decode bytes = text := by
  rw [decode, h]
  exact List.append_nil text

/-- The bytes of a character spell it, however many they are. -/
theorem spells_encodeChar (c : Char) : Spells (String.utf8EncodeChar c) [c] := by
  have hvalid : c.toNat < 0xD800 ∨ 0xDFFF < c.toNat ∧ c.toNat < 0x110000 := c.valid
  unfold Spells String.utf8EncodeChar
  simp only [Char.toNat_val]
  conv => rhs; rw [← Char.ofNat_toNat c]
  -- The encoder takes the shortest form, so each longer one is used with numbers that
  -- the shorter ones cannot hold.
  by_cases hone : c.toNat ≤ 0x7F
  · rw [if_pos hone, Decoder.feed_one hone]
  · rw [if_neg hone]
    by_cases htwo : c.toNat ≤ 0x7FF
    · rw [if_pos htwo, Decoder.feed_two (by omega)]
    · rw [if_neg htwo]
      by_cases hthree : c.toNat ≤ 0xFFFF
      · rw [if_pos hthree, Decoder.feed_three (by omega) (by omega)]
      · rw [if_neg hthree, Decoder.feed_four (by omega)]

theorem spells_encode (text : List Char) : Spells (encode text) text := by
  rw [encode_eq_flatMap]
  have hchars := Spells.flatMap fun c (_ : c ∈ text) => spells_encodeChar c
  rwa [List.flatMap_singleton'] at hchars

/-- A stray byte spells the replacement character, and what follows is read as if it
    were not there. -/
theorem spells_stray {b : UInt8} (h : IsStray b) : Spells [b] [replacement] := by
  unfold IsStray at h
  rw [Spells, Decoder.feed_singleton, Decoder.push, Decoder.begin, if_neg (by omega),
    if_neg (by omega), if_neg (by omega), if_neg (by omega), if_neg (by omega), if_neg (by omega),
    if_neg (by omega), if_neg (by omega)]

end Utf8

/-- Behind a mark that is dropped a text that has none of its own is scanned as it
    is. -/
theorem Fragment.scan_mark {text : List Char} (h : text.head? ≠ some '\uFEFF') :
    scan ('\uFEFF' :: text) = scan text := by
  have hmark : Text.stripMark ('\uFEFF' :: text) = Text.stripMark text := by
    rw [Text.stripMark_of_head?_ne h, Text.stripMark, if_pos rfl]
  unfold scan
  rw [hmark]

namespace Settings

variable (s : Settings)

theorem layoutOfBytes_of_spells {bytes : List UInt8} {text : List Char}
    (h : Utf8.Spells bytes text) : s.layoutOfBytes bytes = s.layout text := by
  rw [layoutOfBytes, h.decode_eq]

theorem layout_mark {text : List Char} (h : text.head? ≠ some '\uFEFF') :
    s.layout ('\uFEFF' :: text) = s.layout text := by
  unfold layout fragments read
  rw [Fragment.scan_mark h]

/-- A file gives what the text it spells gives. That text is the one whose bytes it
    holds, without the mark that may stand in front of them; stray bytes between the
    bytes of texts stand for one replacement character each. And whatever bytes a
    file holds, it gives a layout. -/
theorem bytes_read_as_text :
    (∀ text, s.layoutOfBytes (Utf8.encode text) = s.layout text) ∧
    (∀ text : List Char, text.head? ≠ some '\uFEFF' →
      s.layoutOfBytes (0xEF :: 0xBB :: 0xBF :: Utf8.encode text) = s.layout text) ∧
    (∀ (first : List Char) (others : List (UInt8 × List Char)),
      (∀ other ∈ others, Utf8.IsStray other.1) →
      s.layoutOfBytes (Utf8.encode first
          ++ others.flatMap fun other => other.1 :: Utf8.encode other.2)
        = s.layout (first ++ others.flatMap fun other => Utf8.replacement :: other.2)) ∧
    ∀ bytes, ∃ l, s.layoutOfBytes bytes = .ok l := by
  refine ⟨fun text => ?_, fun text hmark => ?_, fun first others hstray => ?_, fun bytes => ?_⟩
  · exact s.layoutOfBytes_of_spells (Utf8.spells_encode text)
  · -- The mark is a character that is spelt like any other, and it is dropped as text.
    have hbytes : Utf8.Spells [0xEF, 0xBB, 0xBF] ['\uFEFF'] := Utf8.spells_encodeChar '\uFEFF'
    rw [← s.layout_mark hmark]
    exact s.layoutOfBytes_of_spells (hbytes.append (Utf8.spells_encode text))
  · refine s.layoutOfBytes_of_spells ((Utf8.spells_encode first).append ?_)
    exact Utf8.Spells.flatMap fun other hother =>
      (Utf8.spells_stray (hstray other hother)).append (Utf8.spells_encode other.2)
  · exact ⟨_, s.layout_eq _ (s.fragments_eq _)⟩

/-- A mark in front of a slash, and a letter of two bytes with two stray bytes behind
    it, of which the first would begin an overlong slash. -/
theorem bytes_read_as_text_stray :
    ['/'].head? ≠ some '\uFEFF' ∧
    (∀ other ∈ [((0xC0 : UInt8), ['/']), (0xFF, [])], Utf8.IsStray other.1) ∧
    layoutOfBytes {} [0xEF, 0xBB, 0xBF, 0x2F] = layout {} ['/'] ∧
    layoutOfBytes {} [0xC3, 0xA9, 0xC0, 0x2F, 0xFF]
      = layout {} ['\u00E9', '\uFFFD', '/', '\uFFFD'] := by
  have hmark : ['/'].head? ≠ some '\uFEFF' := by decide
  have hstray : ∀ other ∈ [((0xC0 : UInt8), ['/']), (0xFF, [])], Utf8.IsStray other.1 := by decide
  have hslash : Utf8.encode ['/'] = [0x2F] := Utf8.encode_eq_flatMap _
  have hletter : Utf8.encode ['\u00E9'] = [0xC3, 0xA9] := Utf8.encode_eq_flatMap _
  have hnone : Utf8.encode [] = [] := Utf8.encode_eq_flatMap _
  have htexts := bytes_read_as_text {}
  have hafter := htexts.2.2.1 ['\u00E9'] _ hstray
  simp only [List.flatMap_cons, List.flatMap_nil, hslash, hletter, hnone] at hafter
  refine ⟨hmark, hstray, ?_, hafter⟩
  rw [← htexts.2.1 ['/'] hmark, hslash]

end Settings

end SourceTexture
