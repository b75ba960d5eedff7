import SourceTexture.Fragment.Scanner

/-!
# Runs of the scanner

Everything a text makes a scanner hand out, what is left over at its end
included.

`Scanner.feed` keeps the scanner it ends in, because more text may follow. Where
a text is known to be complete that scanner is only good for one thing, and
`Scanner.run` asks it for the rest at once. A carriage return never gets as far
as a step, so a run is taken over the text without them, and the modes need not
know that they exist.

A run is a function of the scanner it starts from, and the lemmas about it
follow the steps: what one character completes comes first, and then the run of
the scanner behind it.

## Main definitions

* `Scanner.run`: All fragments of a text, from a scanner on.

## Theorems

* `Scanner.step_code` and its companions: The step in each mode.
* `Scanner.run_cons`: A run is a step and the run behind it.
* `Scanner.run_filter`: Feeding and finishing is a run.
* `Fragment.scan_eq_run`: The raw fragments of a text are those of a run.
* `Scanner.run_of_gather`: A character that is only gathered.
-/

namespace SourceTexture

namespace Scanner

/-- The fragments a complete text gives, from a scanner on. -/
def run (s : Scanner) : List Char → List Fragment
  | [] => s.finish
  | c :: text => (s.step c).1 ++ (s.step c).2.run text

theorem run_cons (s : Scanner) (c : Char) (text : List Char) :
    s.run (c :: text) = (s.step c).1 ++ (s.step c).2.run text := rfl

/-! ### Steps, mode by mode -/

theorem step_code (pending : List Char) (c : Char) :
    step ⟨.code, pending⟩ c = pushCode ⟨.code, pending⟩ c := rfl

theorem step_slash (pending : List Char) (c : Char) :
    step ⟨.slash, pending⟩ c =
      if c = '*' then ([], ⟨.blockComment, c :: pending⟩)
      else if c = '/' then ([], ⟨.lineComment, c :: pending⟩)
      else resume ⟨.slash, pending⟩ c := rfl

theorem step_delimiters (pending : List Char) (c : Char) :
    step ⟨.delimiters, pending⟩ c =
      if isDelimiter c then ([], ⟨.delimiters, c :: pending⟩)
      else resume ⟨.delimiters, pending⟩ c := rfl

theorem step_literal (quote : Quote) (escaped : Bool) (pending : List Char) (c : Char) :
    step ⟨.literal quote escaped, pending⟩ c
      = pushLiteral ⟨.literal quote escaped, pending⟩ quote escaped c := rfl

theorem step_blockComment (pending : List Char) (c : Char) :
    step ⟨.blockComment, pending⟩ c = pushBlockComment ⟨.blockComment, pending⟩ c := rfl

theorem step_blockStar (pending : List Char) (c : Char) :
    step ⟨.blockStar, pending⟩ c =
      if c = '/' then (flush ⟨.blockStar, c :: pending⟩, {})
      else if c = '*' then ([], ⟨.blockStar, c :: pending⟩)
      else pushBlockComment ⟨.blockComment, pending⟩ c := rfl

theorem step_lineComment (pending : List Char) (c : Char) :
    step ⟨.lineComment, pending⟩ c = pushLineComment ⟨.lineComment, pending⟩ c := rfl

/-! ### Runs -/

/-- What was gathered is handed out in the order in which it was read. -/
theorem flush_reverse (mode : Mode) (text : List Char) (hne : text ≠ []) :
    flush ⟨mode, text.reverse⟩ = [⟨mode.kind, text⟩] := by
  cases hrev : text.reverse with
  | nil => exact absurd (List.reverse_eq_nil_iff.mp hrev) hne
  | cons c cs =>
      have htext : (c :: cs).reverse = text := by rw [← hrev, List.reverse_reverse]
      simp only [flush, htext]

theorem push_carriageReturn (s : Scanner) : s.push '\r' = ([], s) := rfl

theorem push_of_ne {c : Char} (s : Scanner) (h : c ≠ '\r') : s.push c = s.step c := by
  rw [push, if_neg h]

/-- Feeding a text and finishing behind it is a run over what counts in it. -/
theorem run_filter (s : Scanner) (text : List Char) :
    s.run (text.filter (· ≠ '\r')) = (s.feed text).1 ++ (s.feed text).2.finish := by
  induction text generalizing s with
  | nil => rfl
  | cons c text ih =>
      rw [feed_cons]
      -- Both sides pass over a carriage return; anything else is one step of either.
      by_cases hc : c = '\r'
      · rw [hc, push_carriageReturn, List.filter_cons_of_neg (by decide), ih]
        rfl
      · rw [List.filter_cons_of_pos (by simpa only [decide_eq_true_eq] using hc), run_cons, ih,
          push_of_ne s hc, List.append_assoc]

/-- A character that completes nothing leaves the run to the scanner behind it. -/
theorem run_of_gather {s t : Scanner} {c : Char} (h : s.step c = ([], t)) (text : List Char) :
    s.run (c :: text) = t.run text := by
  rw [run_cons, h, List.nil_append]

end Scanner

namespace Fragment

/-- The raw fragments of a text are what feeding hands out, and what is left over. -/
theorem scan_eq_feed (text : List Char) :
    scan text = (Scanner.feed {} (Text.stripMark text)).1
      ++ (Scanner.feed {} (Text.stripMark text)).2.flush := rfl

theorem scan_eq_run (text : List Char) :
    scan text = Scanner.run {} ((Text.stripMark text).filter (· ≠ '\r')) := by
  rw [Scanner.run_filter]
  rfl

end Fragment

end SourceTexture
