import SourceTexture.Proofs.Fragment.Reference
import Mathlib.Data.List.Chain

/-!
# Neighbouring fragments

Which kinds the scanner gives, and which of them it puts next to each other.

A scanner settles the kind of everything it can tell apart and leaves words
undefined. A word ends only at a character that cannot stand in one, and the
lexeme that begins there is of a settled kind. So two undefined fragments are
never neighbours: between any two words there is something that is none.

Nothing in the scanner says so. It is a fact about where lexemes end, and it is
proved on the grammar, where a lexeme is either a longest run of plain characters
or holds settled kinds only.

## Main definitions

* `Kind.isSettled`: The kinds a scanner settles by itself.
* `Fragment.Apart`: Two fragments are not both undefined.

## Theorems

* `LexemeForm.word_or_settled`: A lexeme is a word or holds settled kinds.
* `Reads.isSettled_of_mem`: Fragments are undefined or settled.
* `Reads.isPlain_of_mem`: Undefined ones are made of plain characters.
* `Reads.isChain_apart`: No two neighbours in a text are undefined.
* `Fragment.isSettled_of_mem_scan`, `Fragment.isPlain_of_mem_scan`,
  `Fragment.isChain_scan`: The same of raw fragments.
-/

namespace SourceTexture

/-- Whether a kind is one the scanner settles by itself, without looking at the
    spelling of a word. -/
def Kind.isSettled : Kind → Bool
  | lineComment | blockComment | stringLiteral | characterLiteral | delimiter | space
  | lineFeed => true
  | _ => false

/-- Neighbours that are not both undefined. -/
def Fragment.Apart (f g : Fragment) : Prop :=
  ¬ (f.kind = .undefined ∧ g.kind = .undefined)

theorem Kind.ne_undefined_of_isSettled {k : Kind} (h : k.isSettled = true) : k ≠ .undefined := by
  intro hk
  rw [hk] at h
  exact Bool.noConfusion h

theorem Fragment.apart_of_isSettled_left {f : Fragment} (h : f.kind.isSettled = true)
    (g : Fragment) : f.Apart g :=
  fun hboth => Kind.ne_undefined_of_isSettled h hboth.1

theorem Fragment.apart_of_isSettled_right (f : Fragment) {g : Fragment}
    (h : g.kind.isSettled = true) : f.Apart g :=
  fun hboth => Kind.ne_undefined_of_isSettled h hboth.2

/-! ### Single lexemes -/

/-- A region has its own kind throughout, line breaks apart. -/
theorem kind_of_mem_pieces (kind : Kind) (together : Char → Char → Bool) (region : List Char) :
    ∀ f ∈ pieces kind together region, f.kind = kind ∨ f.kind = .lineFeed := by
  intro f hf
  rcases List.mem_map.mp hf with ⟨text, -, htext⟩
  rw [← htext, piece]
  split
  · exact Or.inr rfl
  · exact Or.inl rfl

/-- The pieces of a region have the kind of the region or are line breaks, so they are
    settled. -/
theorem isSettled_of_mem_pieces {kind : Kind} (hkind : kind.isSettled = true)
    (together : Char → Char → Bool) (region : List Char) :
    ∀ f ∈ pieces kind together region, f.kind.isSettled = true := by
  intro f hf
  rcases kind_of_mem_pieces kind together region f hf with h | h
  · rw [h]
    exact hkind
  · rw [h]
    rfl

theorem pieces_ne_nil (kind : Kind) (together : Char → Char → Bool) {region : List Char}
    (h : region ≠ []) : pieces kind together region ≠ [] := by
  rw [pieces]
  intro hnil
  exact List.splitBy_ne_nil.mpr h (List.map_eq_nil_iff.mp hnil)

theorem Quote.isSettled_kind (quote : Quote) : quote.kind.isSettled = true := by
  cases quote <;> rfl

namespace LexemeForm

variable {c : Char} {rest after : List Char} {fs : List Fragment}

/-- A lexeme is a word, which takes every plain character there is, or holds
    settled kinds only. -/
theorem word_or_settled (h : LexemeForm c rest fs after) :
    (isPlain c = true ∧ (∀ d ∈ after.head?, isPlain d = false) ∧
      ∃ word, fs = [⟨.undefined, word⟩] ∧ ∀ d ∈ word, isPlain d = true) ∨
    fs ≠ [] ∧ ∀ f ∈ fs, f.kind.isSettled = true := by
  have hone (f : Fragment) (hf : f.kind.isSettled = true) :
      [f] ≠ [] ∧ ∀ g ∈ [f], g.kind.isSettled = true :=
    ⟨List.cons_ne_nil _ _, List.forall_mem_singleton.mpr hf⟩
  have hregion {kind : Kind} (hkind : kind.isSettled = true) (together : Char → Char → Bool)
      (d : Char) (region : List Char) :
      pieces kind together (d :: region) ≠ [] ∧
        ∀ f ∈ pieces kind together (d :: region), f.kind.isSettled = true :=
    ⟨pieces_ne_nil _ _ (List.cons_ne_nil _ _), isSettled_of_mem_pieces hkind _ _⟩
  cases h with
  | lineBreak => exact Or.inr (hone _ rfl)
  | blank => exact Or.inr (hone _ rfl)
  | slash => exact Or.inr (hone _ rfl)
  | lineComment => exact Or.inr (hregion rfl _ _ _)
  | blockComment => exact Or.inr (hregion rfl _ _ _)
  | literal quote => exact Or.inr (hregion quote.isSettled_kind _ _ _)
  | delimiters => exact Or.inr (hone _ rfl)
  | word hplain =>
      refine Or.inl ⟨hplain, fun d hd => ?_, _, rfl, ?_⟩
      · -- The run of plain characters was the longest, so the next one is not plain.
        have hnot := List.head?_dropWhile_not isPlain rest
        rw [Option.mem_def.mp hd] at hnot
        exact hnot
      · exact List.forall_mem_cons.mpr ⟨hplain, fun d hd => List.mem_takeWhile_imp hd⟩

end LexemeForm

/-! ### Texts -/

namespace Reads

variable {text : List Char} {fs : List Fragment}

/-- A fragment of a text is undefined or settled for good. -/
theorem isSettled_of_mem (h : Reads text fs) :
    ∀ f ∈ fs, f.kind = .undefined ∨ f.kind.isSettled = true := by
  induction h with
  | nil => exact fun f hf => absurd hf List.not_mem_nil
  | cons hform _ ih =>
      refine List.forall_mem_append.mpr ⟨fun f hf => ?_, ih⟩
      -- Only the lexeme of a word gives undefined fragments.
      rcases hform.word_or_settled with ⟨-, -, word, hfs, -⟩ | ⟨-, hsettled⟩
      · rw [hfs] at hf
        rw [List.mem_singleton.mp hf]
        exact Or.inl rfl
      · exact Or.inr (hsettled f hf)

/-- What is undefined is a word, and holds nothing that would have ended it. -/
theorem isPlain_of_mem (h : Reads text fs) :
    ∀ f ∈ fs, f.kind = .undefined → ∀ c ∈ f.content, isPlain c = true := by
  induction h with
  | nil => exact fun f hf => absurd hf List.not_mem_nil
  | cons hform _ ih =>
      refine List.forall_mem_append.mpr ⟨fun f hf hkind => ?_, ih⟩
      -- An undefined fragment can only come from the lexeme of a word.
      rcases hform.word_or_settled with ⟨-, -, word, hfs, hplain⟩ | ⟨-, hsettled⟩
      · rw [hfs] at hf
        rw [List.mem_singleton.mp hf]
        exact hplain
      · exact absurd hkind (Kind.ne_undefined_of_isSettled (hsettled f hf))

/-- A text that begins with no plain character begins with a settled kind. -/
theorem isSettled_of_mem_head? (h : Reads text fs)
    (hplain : ∀ c ∈ text.head?, isPlain c = false) :
    ∀ f ∈ fs.head?, f.kind.isSettled = true := by
  cases h with
  | nil => exact fun f hf => absurd hf (Option.not_mem_none f)
  | @cons c rest after fs gs hform =>
      intro f hf
      -- The first lexeme is no word, because a word begins with a plain character.
      rcases hform.word_or_settled with ⟨hc, -⟩ | ⟨hne, hsettled⟩
      · exact absurd (hc.symm.trans (hplain c rfl)) (by decide)
      · rw [List.head?_append_of_ne_nil _ hne] at hf
        exact hsettled f (List.mem_of_mem_head? hf)

/-- No two neighbouring fragments of a text are undefined. -/
theorem isChain_apart (h : Reads text fs) : fs.IsChain Fragment.Apart := by
  induction h with
  | nil => exact List.isChain_nil
  | cons hform hafter ih =>
      rcases hform.word_or_settled with ⟨-, hnext, word, hfs, -⟩ | ⟨-, hsettled⟩
      · -- A word by itself, and behind it something settled.
        rw [hfs]
        refine List.isChain_append.mpr ⟨List.isChain_singleton _, ih, fun f _ g hg => ?_⟩
        exact f.apart_of_isSettled_right (hafter.isSettled_of_mem_head? hnext g hg)
      · -- Settled kinds only, which stand apart from anything.
        refine List.isChain_append.mpr ⟨?_, ih, fun f hf g _ => ?_⟩
        · exact (List.pairwise_of_forall_mem_list fun f hf g _ =>
            f.apart_of_isSettled_left (hsettled f hf) g).isChain
        · exact f.apart_of_isSettled_left (hsettled f (List.mem_of_mem_getLast? hf)) g

end Reads

namespace Fragment

/-- The raw fragments of a text are those it is read into lexeme by lexeme. -/
theorem reads_scan (text : List Char) :
    Reads ((Text.stripMark text).filter (· ≠ '\r')) (scan text) := by
  rw [scan_eq_run, Scanner.run_eq_lexemes]
  exact reads_lexemes _

theorem isSettled_of_mem_scan (text : List Char) :
    ∀ f ∈ scan text, f.kind = .undefined ∨ f.kind.isSettled = true :=
  (reads_scan text).isSettled_of_mem

theorem isPlain_of_mem_scan (text : List Char) :
    ∀ f ∈ scan text, f.kind = .undefined → ∀ c ∈ f.content, isPlain c = true :=
  (reads_scan text).isPlain_of_mem

theorem isChain_scan (text : List Char) : (scan text).IsChain Apart :=
  (reads_scan text).isChain_apart

end Fragment

end SourceTexture
