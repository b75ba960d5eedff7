import SourceTexture.Proofs.Fragment.Conservation
import SourceTexture.Proofs.Picture.Placement

/-!
# Cells of a text

Lines and columns, and which fragment stands there.

A text written on squared paper has a cell for every character but the line
breaks. The text says which cells there are, by its lines, and a list of
fragments says who fills them, by its spots. The two agree as long as fragments
keep lines apart: a spot lies in one line, and every cell of a line belongs to a
spot, whose fragment is the one that holds that character of the text. Nor do
two spots share a cell, because a row is written from left to right.

In the inductions a part of the first line is written already. It is carried
along as the text `pad`, so that placing a fragment moves its text from the
fragments to the pad and leaves the lines of the whole as they are.

## Main definitions

* `Text.lines`: The lines of a text.
* `Text.longest`: The length of the longest of some lines.
* `Text.position`: Where a character of a line stands in the text.
* `Fragment.holding`: The fragment that holds a character of the text.
* `Spot.Holds`: A spot has a cell.

## Theorems

* `Fragment.line_of_spot`: Every spot lies in a line.
* `Fragment.spot_of_cell`: Every cell of a line belongs to a spot.
* `Fragment.pairwise_spots`: No two spots share a cell.
-/

namespace SourceTexture

namespace Text

/-- The lines of a text: what stands before, between and behind its line breaks. -/
def lines (text : List Char) : List (List Char) :=
  text.splitOn '\n'

/-- The length of the longest line, and zero where there are none. -/
def longest (lines : List (List Char)) : Nat :=
  largest (lines.map (·.length))

/-- Where the character in column `column` of the line with index `row` stands in
    the text: behind all earlier lines and the line break after each of them. -/
def position : List (List Char) → Nat → Nat → Nat
  | line :: lines, row + 1, column => line.length + 1 + position lines row column
  | _, _, column => column

theorem lines_of_not_mem {text : List Char} (h : '\n' ∉ text) : lines text = [text] :=
  List.splitOn_eq_singleton h

theorem lines_append_lineBreak {front : List Char} (h : '\n' ∉ front) (back : List Char) :
    lines (front ++ '\n' :: back) = front :: lines back :=
  List.splitOn_append_cons_self_of_not_mem h back

/-- Text without line breaks in front lengthens the first line. -/
theorem lines_append {front : List Char} (h : '\n' ∉ front) (back : List Char) :
    ∃ line rest, lines (front ++ back) = line :: rest ∧ front.length ≤ line.length := by
  -- The first line ends at the first line break of the back, or with the text.
  by_cases hback : '\n' ∈ back
  · rcases List.eq_append_cons_of_mem hback with ⟨piece, rest, heq, hpiece⟩
    have hline : '\n' ∉ front ++ piece := List.not_mem_append h hpiece
    refine ⟨front ++ piece, lines rest, ?_, ?_⟩
    · rw [heq, ← List.append_assoc, lines_append_lineBreak hline]
    · rw [List.length_append]
      exact Nat.le_add_right _ _
  · have hline : '\n' ∉ front ++ back := List.not_mem_append h hback
    refine ⟨front ++ back, [], lines_of_not_mem hline, ?_⟩
    rw [List.length_append]
    exact Nat.le_add_right _ _

theorem position_zero (lines : List (List Char)) (column : Nat) :
    position lines 0 column = column := by
  cases lines <;> rfl

theorem position_succ (line : List Char) (lines : List (List Char)) (row column : Nat) :
    position (line :: lines) (row + 1) column = line.length + 1 + position lines row column := rfl

theorem length_le_longest {lines : List (List Char)} {line : List Char} (h : line ∈ lines) :
    line.length ≤ longest lines :=
  le_largest (List.mem_map_of_mem h)

theorem exists_of_lt_longest {lines : List (List Char)} {n : Nat} (h : n < longest lines) :
    ∃ line ∈ lines, n < line.length := by
  rcases exists_of_lt_largest h with ⟨m, hm, hlt⟩
  rcases List.mem_map.mp hm with ⟨line, hline, hlength⟩
  exact ⟨line, hline, hlength ▸ hlt⟩

end Text

/-- A spot has the cell in the given row and column. -/
def Spot.Holds (s : Spot) (row column : Nat) : Prop :=
  s.row = row ∧ s.column ≤ column ∧ column < s.column + s.fragment.content.length

instance (s : Spot) (row column : Nat) : Decidable (s.Holds row column) :=
  inferInstanceAs (Decidable (_ ∧ _))

namespace Fragment

/-- The fragment that holds the character at a position of the text. -/
def holding : List Fragment → Nat → Option Fragment
  | [], _ => none
  | f :: fs, i => if i < f.content.length then some f else holding fs (i - f.content.length)

theorem holding_of_lt {f : Fragment} {i : Nat} (h : i < f.content.length) (fs : List Fragment) :
    holding (f :: fs) i = some f := by
  rw [holding, if_pos h]

theorem holding_add (f : Fragment) (fs : List Fragment) (i : Nat) :
    holding (f :: fs) (f.content.length + i) = holding fs i := by
  rw [holding, if_neg (Nat.not_lt.mpr (Nat.le_add_right _ _)), Nat.add_sub_cancel_left]

theorem lines_lineFeed {pad : List Char} (hpad : '\n' ∉ pad) {f : Fragment}
    (hf : f.content = ['\n']) (fs : List Fragment) :
    Text.lines (pad ++ (f :: fs).flatMap (·.content))
      = pad :: Text.lines ([] ++ fs.flatMap (·.content)) := by
  rw [List.flatMap_cons, hf, List.singleton_append, Text.lines_append_lineBreak hpad,
    List.nil_append]

theorem append_flatMap_cons (pad : List Char) (f : Fragment) (fs : List Fragment) :
    pad ++ (f :: fs).flatMap (·.content) = (pad ++ f.content) ++ fs.flatMap (·.content) := by
  rw [List.flatMap_cons, List.append_assoc]

/-- Every spot lies in a line of the text. -/
theorem exists_line_of_mem_spots {fs : List Fragment} (hfs : ∀ f ∈ fs, f.KeepsLines)
    {pad : List Char} (hpad : '\n' ∉ pad) (row before : Nat) :
    ∀ s ∈ spots row before pad.length fs, ∃ i line, s.row = row + i ∧
      (Text.lines (pad ++ fs.flatMap (·.content)))[i]? = some line ∧
      s.column + s.fragment.content.length ≤ line.length := by
  induction fs generalizing pad row before with
  | nil => exact fun s hs => absurd hs List.not_mem_nil
  | cons f fs ih =>
      have hf : f.KeepsLines := hfs f List.mem_cons_self
      have hrest : ∀ g ∈ fs, g.KeepsLines := fun g hg => hfs g (List.mem_cons_of_mem f hg)
      intro s hs
      by_cases hkind : f.kind = .lineFeed
      · -- The pad is a whole line, and the spots lie in the lines behind it.
        rw [spots_lineFeed hkind] at hs
        rcases ih hrest List.not_mem_nil (row + 1) 0 s hs with ⟨i, line, hrow, hline, hlength⟩
        refine ⟨i + 1, line, by omega, ?_, hlength⟩
        rw [lines_lineFeed hpad (hf.content_eq hkind), List.getElem?_cons_succ]
        exact hline
      · have hpad' : '\n' ∉ pad ++ f.content := List.not_mem_append hpad (hf.not_mem hkind)
        rw [spots_of_ne hkind, ← List.length_append] at hs
        rw [append_flatMap_cons]
        rcases List.mem_cons.mp hs with hs | hs
        · rcases Text.lines_append hpad' (fs.flatMap (·.content)) with ⟨line, rest, heq, hle⟩
          refine ⟨0, line, by rw [hs, Nat.add_zero], by rw [heq, List.getElem?_cons_zero], ?_⟩
          rw [hs, ← List.length_append]
          exact hle
        · exact ih hrest hpad' row (before + 1) s hs

/-- Where the pad is the first line, it has no cells behind it. -/
theorem not_le_of_first_line {pad line : List Char} {rest : List (List Char)} {c : Nat}
    (hline : (pad :: rest)[0]? = some line) (hc : c < line.length) : ¬ pad.length ≤ c := by
  rw [List.getElem?_cons_zero, Option.some.injEq] at hline
  rw [hline]
  exact Nat.not_le.mpr hc

/-- Every cell of a line behind the pad belongs to a spot, and the fragment there
    holds the character that stands in the cell. -/
theorem exists_spot_of_line {fs : List Fragment} (hfs : ∀ f ∈ fs, f.KeepsLines)
    {pad : List Char} (hpad : '\n' ∉ pad) (row before : Nat) {i c : Nat} {line : List Char}
    (hline : (Text.lines (pad ++ fs.flatMap (·.content)))[i]? = some line)
    (hc : c < line.length) (hbehind : i = 0 → pad.length ≤ c) :
    ∃ s ∈ spots row before pad.length fs, s.Holds (row + i) c ∧
      ∃ k, Text.position (Text.lines (pad ++ fs.flatMap (·.content))) i c = pad.length + k ∧
        holding fs k = some s.fragment := by
  induction fs generalizing pad row before i with
  | nil =>
      -- The pad is the only line, and nothing stands behind it.
      rw [List.flatMap_nil, List.append_nil, Text.lines_of_not_mem hpad] at hline
      cases i with
      | zero => exact absurd (hbehind rfl) (not_le_of_first_line hline hc)
      | succ i =>
          rw [List.getElem?_cons_succ, List.getElem?_nil] at hline
          exact absurd hline (by simp only [reduceCtorEq, not_false_eq_true])
  | cons f fs ih =>
      have hf : f.KeepsLines := hfs f List.mem_cons_self
      have hrest : ∀ g ∈ fs, g.KeepsLines := fun g hg => hfs g (List.mem_cons_of_mem f hg)
      by_cases hkind : f.kind = .lineFeed
      · rw [spots_lineFeed hkind]
        rw [lines_lineFeed hpad (hf.content_eq hkind)] at hline ⊢
        cases i with
        | zero => exact absurd (hbehind rfl) (not_le_of_first_line hline hc)
        | succ i =>
            rw [List.getElem?_cons_succ] at hline
            rcases ih hrest List.not_mem_nil (row + 1) 0 hline (fun _ => Nat.zero_le c) with
              ⟨s, hs, hholds, k, hk, hfrag⟩
            refine ⟨s, hs, ?_, f.content.length + k, ?_, ?_⟩
            · rw [Nat.add_right_comm, Nat.add_assoc] at hholds
              exact hholds
            · rw [Text.position_succ, hk, hf.content_eq hkind, List.length_nil,
                List.length_singleton]
              omega
            · rw [holding_add, hfrag]
      · have hpad' : '\n' ∉ pad ++ f.content := List.not_mem_append hpad (hf.not_mem hkind)
        rw [append_flatMap_cons] at hline ⊢
        rw [spots_of_ne hkind, ← List.length_append]
        -- The first fragment has the next cells of the first line, the others the rest.
        by_cases hhere : i = 0 ∧ c < (pad ++ f.content).length
        · rcases hhere with ⟨hi, hlt⟩
          have hle := hbehind hi
          rw [List.length_append] at hlt
          refine ⟨_, List.mem_cons_self, ⟨by rw [hi, Nat.add_zero], hle, hlt⟩, c - pad.length,
            ?_, holding_of_lt (by omega) fs⟩
          rw [hi, Text.position_zero]
          omega
        · have hnext : i = 0 → (pad ++ f.content).length ≤ c :=
            fun hi => Nat.not_lt.mp fun hlt => hhere ⟨hi, hlt⟩
          rcases ih hrest hpad' row (before + 1) hline hnext with ⟨s, hs, hholds, k, hk, hfrag⟩
          refine ⟨s, List.mem_cons_of_mem _ hs, hholds, f.content.length + k, ?_, ?_⟩
          · rw [hk, List.length_append, Nat.add_assoc]
          · rw [holding_add, hfrag]

/-- A spot lies in a line of the text, and its fragment ends where that line ends or
    before. -/
theorem line_of_spot {fs : List Fragment} (hfs : ∀ f ∈ fs, f.KeepsLines) {s : Spot}
    (hs : s ∈ spots 0 0 0 fs) :
    ∃ line, (Text.lines (fs.flatMap (·.content)))[s.row]? = some line ∧
      s.column + s.fragment.content.length ≤ line.length := by
  rcases exists_line_of_mem_spots hfs List.not_mem_nil 0 0 s hs with
    ⟨i, line, hrow, hline, hlength⟩
  rw [hrow, Nat.zero_add]
  exact ⟨line, hline, hlength⟩

/-- Every cell of a line belongs to a spot, namely that of the fragment which holds the
    character there. -/
theorem spot_of_cell {fs : List Fragment} (hfs : ∀ f ∈ fs, f.KeepsLines) {i c : Nat}
    {line : List Char} (hline : (Text.lines (fs.flatMap (·.content)))[i]? = some line)
    (hc : c < line.length) :
    ∃ s ∈ spots 0 0 0 fs, s.Holds i c ∧
      holding fs (Text.position (Text.lines (fs.flatMap (·.content))) i c)
        = some s.fragment := by
  rcases exists_spot_of_line hfs List.not_mem_nil 0 0 hline hc (fun _ => Nat.zero_le c) with
    ⟨s, hs, hholds, k, hk, hfrag⟩
  rw [Nat.zero_add] at hholds
  rw [List.nil_append, List.length_nil, Nat.zero_add] at hk
  exact ⟨s, hs, hholds, by rw [hk]; exact hfrag⟩

/-- A fragment with a spot is one of those placed. -/
theorem fragment_mem_of_mem_spots (fs : List Fragment) (row before column : Nat) :
    ∀ s ∈ spots row before column fs, s.fragment ∈ fs := by
  induction fs generalizing row before column with
  | nil => exact fun s hs => absurd hs List.not_mem_nil
  | cons f fs ih =>
      intro s hs
      by_cases hkind : f.kind = .lineFeed
      · rw [spots_lineFeed hkind] at hs
        exact List.mem_cons_of_mem f (ih _ _ _ s hs)
      · rw [spots_of_ne hkind] at hs
        rcases List.mem_cons.mp hs with hs | hs
        · rw [hs]
          exact List.mem_cons_self
        · exact List.mem_cons_of_mem f (ih _ _ _ s hs)

/-- A line with a spot is not empty, as no fragment is. -/
theorem line_ne_nil_of_spot {fs : List Fragment} (hfs : ∀ f ∈ fs, f.KeepsLines)
    (hne : ∀ f ∈ fs, f.content ≠ []) {s : Spot} (hs : s ∈ spots 0 0 0 fs) {line : List Char}
    (hline : (Text.lines (fs.flatMap (·.content)))[s.row]? = some line) : line ≠ [] := by
  rcases line_of_spot hfs hs with ⟨line', hline', hlength⟩
  -- The line is at least as long as the fragment in it.
  have hcontent := List.length_pos_of_ne_nil (hne _ (fragment_mem_of_mem_spots fs 0 0 0 s hs))
  rw [hline, Option.some.injEq] at hline'
  rw [← hline'] at hlength
  exact List.ne_nil_of_length_pos (by omega)

/-- No cell belongs to two spots, because the one ends before the other begins. -/
theorem pairwise_spots (fs : List Fragment) (row before column : Nat) :
    (spots row before column fs).Pairwise fun s t => ∀ l c, s.Holds l c → ¬ t.Holds l c := by
  refine (pairwise_precedes_spots fs row before column).imp fun hprecedes l c hs ht => ?_
  unfold Spot.Precedes at hprecedes
  unfold Spot.Holds at hs ht
  omega

end Fragment

end SourceTexture
