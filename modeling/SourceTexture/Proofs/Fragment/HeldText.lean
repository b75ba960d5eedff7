import SourceTexture.Proofs.Fragment.Reference

/-!
# Held text

What a scanner can be holding back, told from the mode it is in.

A scanner may be stopped at any character, and whatever it was fed, the text it
holds belongs to its mode. In code it is the beginning of a word. Behind a slash it
is that slash and nothing else, because anything that stood in front was handed out
when the slash came. A run of delimiters is never empty. In a comment it is a stretch
without blanks, for blanks are handed out one by one, and behind a star it ends in
that star.

A literal is the one mode with a memory of its own, the flag that says whether the
next character is escaped. The flag is no more than a summary of the text held: it is
set exactly if that text ends in an odd number of backslashes. A line break does not
disturb this, although it clears the flag in the middle of a run of backslashes,
because it hands out the text along with them. What a tab is worth does not disturb it
either, because blanks are held behind the backslashes.

A step can only be followed if the text held before it is known to fit, so this is
proved of all modes at once.

## Main definitions

* `Mode.Allows`: The texts that may be held in a mode.
* `Scanner.Fits`: The text a scanner holds is one its mode allows.

## Theorems

* `Scanner.pushCode_fits` and its companions: The rules of a mode lead to a scanner
  that fits.
* `Scanner.step_fits`: So does every step.
* `Scanner.feed_fits`: So does every text.
* `Scanner.held_text_fits`: The same for a fresh scanner, and what a line break leaves.
-/

namespace SourceTexture

/-- The texts that may be held in a mode, latest character first. The flag of a literal
    says whether the text ends in an odd number of backslashes. -/
def Mode.Allows : Mode → List Char → Prop
  | code, held => ∀ c ∈ held, isPlain c = true ∧ c ≠ '\r'
  | slash, held => held = ['/']
  | delimiters, held => held ≠ [] ∧ ∀ c ∈ held, isDelimiter c = true
  | literal _ escaped, held =>
    escaped = escapes held ∧ ∀ c ∈ held, c ≠ '\n' ∧ c ≠ '\t' ∧ c ≠ '\r'
  | blockComment, held => ∀ c ∈ held, standsAlone c = false ∧ c ≠ '\r'
  | blockStar, held => held.head? = some '*' ∧ ∀ c ∈ held, standsAlone c = false ∧ c ≠ '\r'
  | lineComment, held => ∀ c ∈ held, standsAlone c = false ∧ c ≠ '\r'

namespace Scanner

/-- The text a scanner holds is one its mode allows. -/
def Fits (s : Scanner) : Prop :=
  s.mode.Allows s.pending

theorem fits_fresh : Fits {} :=
  List.forall_mem_nil _

/-! ### The rules of the modes -/

/-- Code holds the beginning of a word. Every other character leads to a mode that
    begins with it, or to one that holds nothing. -/
theorem pushCode_fits {pending : List Char} (h : Fits ⟨.code, pending⟩) {c : Char}
    (hc : c ≠ '\r') : (pushCode ⟨.code, pending⟩ c).2.Fits := by
  rw [pushCode]
  split_ifs with hfeed hslash hdouble hsingle hdelimiter hblank
  · exact fits_fresh
  · rw [hslash]
    exact rfl
  · rw [hdouble]
    exact ⟨rfl, List.forall_mem_singleton.mpr (by decide)⟩
  · rw [hsingle]
    exact ⟨rfl, List.forall_mem_singleton.mpr (by decide)⟩
  · exact ⟨List.cons_ne_nil c [], List.forall_mem_singleton.mpr hdelimiter⟩
  · exact fits_fresh
  · -- None of the characters that end a word is left.
    have hplain : isPlain c = true := by
      simp only [isPlain, hfeed, hslash, hdouble, hsingle, hdelimiter, hblank, decide_false,
        Bool.or_self, Bool.not_false]
    exact List.forall_mem_cons.mpr ⟨⟨hplain, hc⟩, h⟩

/-- What ends a run is read in code with nothing held. -/
theorem resume_fits (s : Scanner) {c : Char} (hc : c ≠ '\r') : (s.resume c).2.Fits :=
  pushCode_fits fits_fresh hc

/-- A character that a comment gathers does not stand alone in it. -/
theorem standsAlone_eq_false {c : Char} (hfeed : c ≠ '\n') (hblank : ¬ Text.isBlank c = true) :
    standsAlone c = false := by
  rw [standsAlone, decide_eq_false hfeed, Bool.false_or]
  exact Bool.eq_false_iff.mpr hblank

/-- A block comment goes on holding what does not stand alone, and a star with it. -/
theorem pushBlockComment_fits {pending : List Char} (h : Fits ⟨.blockComment, pending⟩) {c : Char}
    (hc : c ≠ '\r') : (pushBlockComment ⟨.blockComment, pending⟩ c).2.Fits := by
  rw [pushBlockComment]
  split_ifs with hfeed hstar hblank
  · exact List.forall_mem_nil _
  · -- The star is held with the rest, until the next character shows
    -- whether the comment ends.
    rw [hstar]
    exact ⟨rfl, List.forall_mem_cons.mpr ⟨⟨standsAlone_star, by decide⟩, h⟩⟩
  · exact List.forall_mem_nil _
  · exact List.forall_mem_cons.mpr ⟨⟨standsAlone_eq_false hfeed hblank, hc⟩, h⟩

/-- A line comment ends at the line break, and then code begins with nothing held. -/
theorem pushLineComment_fits {pending : List Char} (h : Fits ⟨.lineComment, pending⟩) {c : Char}
    (hc : c ≠ '\r') : (pushLineComment ⟨.lineComment, pending⟩ c).2.Fits := by
  rw [pushLineComment]
  split_ifs with hfeed hblank
  · exact fits_fresh
  · exact List.forall_mem_nil _
  · exact List.forall_mem_cons.mpr ⟨⟨standsAlone_eq_false hfeed hblank, hc⟩, h⟩

/-- Behind a character that does not escape the next one, no backslash is left to. -/
theorem escapes_expand_append {held : List Char} {c : Char}
    (h : ¬ (c = '\\' ∧ escapes held = false)) :
    escapes ((Text.expand c).reverse ++ held) = false := by
  by_cases htab : c = '\t'
  · -- The latest of the blanks is no backslash.
    have hblanks : (Text.expand c).reverse ++ held = ' ' :: (' ' :: ' ' :: ' ' :: held) := by
      rw [htab]
      rfl
    rw [hblanks, escapes_cons]
    rfl
  · rw [Text.expand_of_ne htab, List.reverse_singleton, List.singleton_append, escapes_cons]
    by_cases hslash : c = '\\'
    · -- A backslash that does not escape is one that is escaped itself.
      have hescaped : escapes held = true := by
        by_contra hfalse
        exact h ⟨hslash, Bool.eq_false_iff.mpr hfalse⟩
      rw [hescaped, Bool.not_true, Bool.and_false]
    · rw [decide_eq_false hslash, Bool.false_and]

/-- In a literal the flag is set by a backslash that is not escaped, and cleared by all
    else. That is how the parity of the backslashes held changes as well. -/
theorem pushLiteral_fits {quote : Quote} {escaped : Bool} {pending : List Char}
    (h : Fits ⟨.literal quote escaped, pending⟩) {c : Char} (hc : c ≠ '\r') :
    (pushLiteral ⟨.literal quote escaped, pending⟩ quote escaped c).2.Fits := by
  rcases h with ⟨hflag, hchars⟩
  have hflag' : escaped = escapes pending := hflag
  rw [pushLiteral]
  split_ifs with hfeed hmark hslash
  · exact ⟨rfl, List.forall_mem_nil _⟩
  · exact fits_fresh
  · -- The backslash comes behind an even number of them.
    have hodd : escapes (c :: pending) = true := by
      rw [escapes_cons, ← hflag', hslash.1, hslash.2]
      rfl
    exact ⟨hodd.symm, List.forall_mem_cons.mpr ⟨by rw [hslash.1]; decide, hchars⟩⟩
  · rw [hflag'] at hslash
    refine ⟨(escapes_expand_append hslash).symm, List.forall_mem_append.mpr ⟨?_, hchars⟩⟩
    intro d hd
    rcases Text.eq_of_mem_expand (List.mem_reverse.mp hd) with hblank | ⟨hsame, htab⟩
    · rw [hblank]
      decide
    · rw [hsame]
      exact ⟨hfeed, htab, hc⟩

/-! ### Steps and texts -/

/-- A step leads to a scanner that fits. A carriage return never gets as far as a
    step. -/
theorem step_fits {s : Scanner} (h : s.Fits) {c : Char} (hc : c ≠ '\r') : (s.step c).2.Fits := by
  rcases s with ⟨mode, pending⟩
  cases mode with
  | code => exact pushCode_fits h hc
  | slash =>
      -- All that is held is the slash that may open the comment.
      have hheld : pending = ['/'] := h
      have hslash : ∀ d ∈ ['/'], standsAlone d = false ∧ d ≠ '\r' :=
        List.forall_mem_singleton.mpr (by decide)
      rw [step_slash, hheld]
      split_ifs with hstar hslash'
      · rw [hstar]
        exact List.forall_mem_cons.mpr ⟨⟨standsAlone_star, by decide⟩, hslash⟩
      · rw [hslash']
        exact List.forall_mem_cons.mpr ⟨by decide, hslash⟩
      · exact resume_fits _ hc
  | delimiters =>
      rw [step_delimiters]
      split_ifs with hdelimiter
      · exact ⟨List.cons_ne_nil c pending, List.forall_mem_cons.mpr ⟨hdelimiter, h.2⟩⟩
      · exact resume_fits _ hc
  | literal quote escaped => exact pushLiteral_fits h hc
  | blockComment => exact pushBlockComment_fits h hc
  | blockStar =>
      rw [step_blockStar]
      split_ifs with hslash hstar
      · exact fits_fresh
      · rw [hstar]
        exact ⟨rfl, List.forall_mem_cons.mpr ⟨⟨standsAlone_star, by decide⟩, h.2⟩⟩
      · -- The star closed nothing, and is text of the comment like any other.
        have hcomment : Fits ⟨.blockComment, pending⟩ := h.2
        exact pushBlockComment_fits hcomment hc
  | lineComment => exact pushLineComment_fits h hc

theorem push_fits {s : Scanner} (h : s.Fits) (c : Char) : (s.push c).2.Fits := by
  by_cases hc : c = '\r'
  · rw [hc, push_carriageReturn]
    exact h
  · rw [push_of_ne s hc]
    exact step_fits h hc

/-- A scanner that fits goes on to do so over any text. -/
theorem feed_fits {s : Scanner} (h : s.Fits) (text : List Char) : (s.feed text).2.Fits := by
  induction text generalizing s with
  | nil => exact h
  | cons c text ih =>
      rw [feed_cons]
      exact ih (push_fits h c)

/-- A line break leaves nothing held, in a mode that what is behind it begins with: in
    code, or in the block comment or the literal that goes on. -/
theorem push_lineBreak (s : Scanner) :
    ∃ mode, (s.push '\n').2 = ⟨mode, []⟩ ∧
      (mode = .code ∨ mode = .blockComment ∨ ∃ quote, mode = .literal quote false) := by
  rcases s with ⟨mode, pending⟩
  cases mode with
  | code | slash | delimiters | lineComment => exact ⟨.code, rfl, Or.inl rfl⟩
  | blockComment | blockStar => exact ⟨.blockComment, rfl, Or.inr (Or.inl rfl)⟩
  | literal quote escaped => exact ⟨.literal quote false, rfl, Or.inr (Or.inr ⟨quote, rfl⟩)⟩

/-- Whatever has been pushed into a fresh scanner, the text it holds fits its mode. If a
    line break was pushed last it holds nothing, and is in code, in a block comment, or
    in a literal whose next character is not escaped. -/
theorem held_text_fits (pushed : List Char) :
    (feed {} pushed).2.Fits ∧
      ∃ mode, (feed {} (pushed ++ ['\n'])).2 = ⟨mode, []⟩ ∧
        (mode = .code ∨ mode = .blockComment ∨ ∃ quote, mode = .literal quote false) := by
  refine ⟨feed_fits fits_fresh pushed, ?_⟩
  have hlast := push_lineBreak (feed {} pushed).2
  rw [feed_append, feed_cons]
  exact hlast

end Scanner

end SourceTexture
