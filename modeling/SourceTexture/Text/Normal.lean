/-!
# Normal text

What is left of a text once the ways in which editors and systems write the
same thing differently are ironed out.

A byte order mark in front says how the file was encoded and is no part of its
text. A carriage return never shows: with a line feed it belongs to the line
break, and alone it has no width. A tab is worth four blanks wherever it
stands, because the picture has no tab stops.

## Main definitions

* `Text.tab`: The blanks a tab is worth.
* `Text.isBlank`: Whether a character is a blank.
* `Text.expand`: A character with its tab expanded.
* `Text.stripMark`: A text without the byte order mark in front.
* `Text.normalize`: A text with all three rules applied.

## Theorems

* `Text.eq_of_mem_expand`: What expanding a character gives.
* `Text.stripMark_append`: Text in front keeps its mark to itself.
-/

namespace SourceTexture

namespace Text

/-- The blanks a tab is worth. -/
def tab : List Char := [' ', ' ', ' ', ' ']

/-- Whether a character is a blank. -/
def isBlank (c : Char) : Bool :=
  c = ' ' || c = '\t'

/-- The character itself, or the blanks it is worth if it is a tab. -/
def expand (c : Char) : List Char :=
  if c = '\t' then tab else [c]

/-- The text without a byte order mark in front. Only one is dropped, and only
    there; anywhere else it is a character like any other. -/
def stripMark : List Char → List Char
  | [] => []
  | c :: text => if c = '\uFEFF' then text else c :: text

theorem isBlank_iff (c : Char) : isBlank c = true ↔ c = ' ' ∨ c = '\t' := by
  rw [isBlank, Bool.or_eq_true, decide_eq_true_eq, decide_eq_true_eq]

theorem expand_of_ne {c : Char} (h : c ≠ '\t') : expand c = [c] := if_neg h

theorem expand_ne_nil (c : Char) : expand c ≠ [] := by
  rw [expand]
  split <;> exact List.cons_ne_nil _ _

/-- Expanding makes nothing but blanks, and leaves no tab. -/
theorem eq_of_mem_expand {c d : Char} (h : d ∈ expand c) : d = ' ' ∨ d = c ∧ c ≠ '\t' := by
  rw [expand] at h
  split at h
  · exact Or.inl (List.eq_of_mem_replicate (n := 4) h)
  · next htab => exact Or.inr ⟨List.mem_singleton.mp h, htab⟩

theorem stripMark_of_head?_ne {text : List Char} (h : text.head? ≠ some '\uFEFF') :
    stripMark text = text := by
  cases text with
  | nil => rfl
  | cons c text => rw [stripMark, if_neg fun hc => h (by rw [hc, List.head?_cons])]

/-- A mark is looked for in the text in front, and behind it only if nothing
    stands in front. -/
theorem stripMark_append {front back : List Char}
    (h : front ≠ [] ∨ back.head? ≠ some '\uFEFF') :
    stripMark (front ++ back) = stripMark front ++ back := by
  cases front with
  | nil =>
      rcases h with h | h
      · exact absurd rfl h
      · exact stripMark_of_head?_ne h
  | cons c front =>
      -- The first character is the same with the rest of the text behind it.
      rw [List.cons_append, stripMark, stripMark]
      split <;> rfl

/-- Behind a character that is no mark there is none to look for. -/
theorem stripMark_append_cons {c : Char} (h : c ≠ '\uFEFF') (front back : List Char) :
    stripMark (front ++ c :: back) = stripMark front ++ c :: back :=
  stripMark_append (Or.inr fun hmark => h (Option.some.inj hmark))

/-- The text without byte order mark and carriage returns, tabs expanded. -/
def normalize (text : List Char) : List Char :=
  ((stripMark text).filter (· ≠ '\r')).flatMap expand

end Text

end SourceTexture
