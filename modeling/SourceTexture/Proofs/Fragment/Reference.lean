import SourceTexture.Proofs.Fragment.Lexemes
import SourceTexture.Proofs.Fragment.ScannerRun
import Mathlib.Tactic.SplitIfs

/-!
# The scanner against the grammar

Scanning a text gives the fragments of its lexemes.

The proof follows the modes. For each mode there is one lemma that says what a
run from that mode does until the scanner is back in code: it hands out the rest
of the lexeme it is in, and goes on behind it as a fresh scanner would. The text
gathered so far appears in the lemma as the front of the lexeme, which is what
makes the induction on the rest of the text go through.

The escape flag of a literal is the one part of a mode that the grammar does not
have. It stands for the parity of the backslashes just passed, and the lemma for
literals is stated about scanners whose flag agrees with what was passed. The
pending star of a block comment needs no such care: the scanner behind a star
and the grammar in front of it look at the same two characters.

## Main definitions

* `Scanner.RunsBlockComment`, `Scanner.RunsBlockStar`: What a run does from either
  mode of a block comment.

## Theorems

* `Scanner.run_gathering`: A mode that gathers a class of characters takes the
  longest run of them.
* `Scanner.run_lineComment`: The rest of a line comment.
* `Scanner.run_blockComment_and_star`: The rest of a block comment.
* `Scanner.run_literal`: The rest of a literal.
* `Scanner.run_lexeme`: A run of a fresh scanner begins with a lexeme.
* `Scanner.run_eq_lexemes`: A run of a fresh scanner is the lexemes.
* `Fragment.scan_eq_lexemes`: Scanning is reading lexeme by lexeme.
-/

namespace SourceTexture

namespace Scanner

/-! ### Words and delimiters -/

/-- A plain character is none of those that end a word, so it is gathered. -/
theorem pushCode_of_isPlain (s : Scanner) {c : Char} (h : isPlain c) :
    s.pushCode c = ([], s.gather c) := by
  rcases (isPlain_iff c).mp h with ⟨hfeed, hspace, htab, hslash, hdouble, hsingle, hdelimiter⟩
  have hblank : ¬ Text.isBlank c = true := by
    simp only [Text.isBlank, hspace, htab, decide_false, Bool.or_self, Bool.false_eq_true,
      not_false_eq_true]
  rw [pushCode, if_neg hfeed, if_neg hslash, if_neg (show c ≠ Quote.double.mark from hdouble),
    if_neg (show c ≠ Quote.single.mark from hsingle), if_neg (Bool.eq_false_iff.mp hdelimiter),
    if_neg hblank]

/-- A character that ends a word does the same whether or not there was one. -/
theorem pushCode_of_not_isPlain (pending : List Char) {c : Char} (h : isPlain c = false) :
    pushCode ⟨.code, pending⟩ c
      = (flush ⟨.code, pending⟩ ++ (pushCode {} c).1, (pushCode {} c).2) := by
  simp only [pushCode, cut, enter, gather]
  -- Every rule hands out the word first, but the last one, which is for plain characters.
  split_ifs with hfeed hslash hdouble hsingle hdelimiter hblank
  · rfl
  · exact congrArg (·, _) (List.append_nil _).symm
  · exact congrArg (·, _) (List.append_nil _).symm
  · exact congrArg (·, _) (List.append_nil _).symm
  · exact congrArg (·, _) (List.append_nil _).symm
  · rfl
  · simp only [isPlain, hfeed, hslash, hdouble, hsingle, hdelimiter, hblank, decide_false,
      Bool.or_self, Bool.not_false, Bool.true_eq_false] at h

/-- A mode that gathers the characters of a class and reads any other character
    afresh hands out the longest run of the class. -/
theorem run_gathering (mode : Mode) (p : Char → Bool)
    (hin : ∀ pending c, p c = true → step ⟨mode, pending⟩ c = ([], ⟨mode, c :: pending⟩))
    (hout : ∀ pending c, p c = false → step ⟨mode, pending⟩ c
      = (flush ⟨mode, pending⟩ ++ (step {} c).1, (step {} c).2))
    (pending text : List Char) :
    run ⟨mode, pending⟩ text
      = flush ⟨mode, (text.takeWhile p).reverse ++ pending⟩ ++ run {} (text.dropWhile p) := by
  -- Characters move from the text to what is pending until one is not in the class.
  induction text generalizing pending with
  | nil => exact (List.append_nil _).symm
  | cons c text ih =>
      cases hc : p c with
      | true =>
          rw [run_of_gather (hin pending c hc), ih, List.takeWhile_cons_of_pos hc,
            List.dropWhile_cons_of_pos hc, List.reverse_cons, List.append_assoc,
            List.singleton_append]
      | false =>
          have hneg : ¬ p c = true := Bool.eq_false_iff.mp hc
          rw [run_cons, hout pending c hc, List.takeWhile_cons_of_neg hneg,
            List.dropWhile_cons_of_neg hneg, run_cons, List.append_assoc]
          rfl

theorem run_code (pending text : List Char) :
    run ⟨.code, pending⟩ text
      = flush ⟨.code, (text.takeWhile isPlain).reverse ++ pending⟩
        ++ run {} (text.dropWhile isPlain) :=
  run_gathering .code isPlain (fun pending _ h => pushCode_of_isPlain ⟨.code, pending⟩ h)
    (fun pending _ h => pushCode_of_not_isPlain pending h) pending text

/-- A run of delimiters goes on as long as there are any, and behind it code begins
    anew. -/
theorem run_delimiters (pending text : List Char) :
    run ⟨.delimiters, pending⟩ text
      = flush ⟨.delimiters, (text.takeWhile isDelimiter).reverse ++ pending⟩
        ++ run {} (text.dropWhile isDelimiter) := by
  refine run_gathering .delimiters isDelimiter (fun pending c h => ?_) (fun pending c h => ?_)
    pending text
  · rw [step_delimiters, if_pos h]
  · rw [step_delimiters, if_neg (Bool.eq_false_iff.mp h)]
    rfl

/-! ### Comments -/

/-- A stretch of a comment that is held at the end of the text is one piece, or none if
    nothing is held. -/
theorem flush_unbroken (mode : Mode) (gathered : List Char)
    (h : ∀ c ∈ gathered, standsAlone c = false) :
    flush ⟨mode, gathered.reverse⟩ = pieces mode.kind togetherInComment gathered := by
  by_cases hne : gathered = []
  · rw [hne]
    rfl
  · rw [flush_reverse mode gathered hne, commentPieces_unbroken mode.kind hne h]

/-- What follows the characters gathered in a comment when one more of them is
    gathered. -/
theorem unbroken_append {gathered : List Char} {c : Char}
    (h : ∀ d ∈ gathered, standsAlone d = false) (hc : standsAlone c = false) :
    ∀ d ∈ gathered ++ [c], standsAlone d = false := by
  intro d hd
  rcases List.mem_append.mp hd with hd | hd
  · exact h d hd
  · rw [List.mem_singleton.mp hd]
    exact hc

theorem gather_reverse (mode : Mode) (gathered : List Char) (c : Char) :
    gather ⟨mode, gathered.reverse⟩ c = ⟨mode, (gathered ++ [c]).reverse⟩ := by
  rw [List.reverse_append]
  rfl

/-- A blank is a piece by itself, and holds what it is worth. -/
theorem piece_of_isBlank (kind : Kind) {c : Char} (h : Text.isBlank c = true) :
    piece kind [c] = ⟨kind, Text.expand c⟩ := by
  have hfeed : '\n' ∉ [c] := by
    intro hmem
    rw [← List.mem_singleton.mp hmem] at h
    exact absurd h (by decide)
  rw [piece_of_not_mem kind hfeed, List.flatMap_singleton]

/-- A character that stands alone in a comment is cut off from what was gathered
    before it, and the comment goes on behind it. -/
theorem run_of_cut (mode : Mode) (gathered text : List Char) (c : Char)
    (h : ∀ d ∈ gathered, standsAlone d = false)
    (hstep : step ⟨mode, gathered.reverse⟩ c
      = cut ⟨mode, gathered.reverse⟩ (piece mode.kind [c])) :
    run ⟨mode, gathered.reverse⟩ (c :: text)
      = pieces mode.kind togetherInComment gathered
        ++ piece mode.kind [c] :: run ⟨mode, [].reverse⟩ text := by
  rw [run_cons, hstep, cut, flush_unbroken mode gathered h, List.append_assoc]
  rfl

theorem step_lineComment_of_isBlank (pending : List Char) {c : Char}
    (h : Text.isBlank c = true) :
    step ⟨.lineComment, pending⟩ c = cut ⟨.lineComment, pending⟩ (piece .lineComment [c]) := by
  have hfeed : c ≠ '\n' := fun hc => absurd h (by rw [hc]; decide)
  rw [step_lineComment, pushLineComment, if_neg hfeed, if_pos h, piece_of_isBlank _ h]

theorem step_lineComment_of_not_standsAlone (gathered : List Char) {c : Char}
    (h : standsAlone c = false) :
    step ⟨.lineComment, gathered.reverse⟩ c
      = ([], ⟨.lineComment, (gathered ++ [c]).reverse⟩) := by
  rw [standsAlone, Bool.or_eq_false_iff, decide_eq_false_iff_not] at h
  rw [step_lineComment, pushLineComment, if_neg h.1, if_neg (Bool.eq_false_iff.mp h.2),
    gather_reverse]

/-- The rest of a line comment, up to the line break that ends it. -/
theorem run_lineComment (gathered text : List Char)
    (h : ∀ c ∈ gathered, standsAlone c = false) :
    run ⟨.lineComment, gathered.reverse⟩ text
      = pieces .lineComment togetherInComment (gathered ++ text.takeWhile (· ≠ '\n'))
        ++ run {} (text.dropWhile (· ≠ '\n')) := by
  induction text generalizing gathered with
  | nil =>
      rw [List.takeWhile_nil, List.append_nil]
      exact (flush_unbroken .lineComment gathered h).trans (List.append_nil _).symm
  | cons c text ih =>
      by_cases hfeed : c = '\n'
      · -- The line break is read as code, where nothing is gathered before it.
        rw [hfeed, List.takeWhile_cons_of_neg (by decide), List.dropWhile_cons_of_neg (by decide),
          List.append_nil, run_cons, run_cons]
        change (flush ⟨.lineComment, gathered.reverse⟩ ++ [.lineBreak]) ++ run {} text = _
        rw [flush_unbroken .lineComment gathered h, List.append_assoc]
        rfl
      · have hmore : decide (c ≠ '\n') = true := decide_eq_true hfeed
        rw [List.takeWhile_cons_of_pos (p := fun d => decide (d ≠ '\n')) hmore,
          List.dropWhile_cons_of_pos (p := fun d => decide (d ≠ '\n')) hmore]
        -- A blank ends the piece gathered so far, and the next one begins empty.
        cases hblank : Text.isBlank c with
        | true =>
            rw [run_of_cut .lineComment gathered text c h (step_lineComment_of_isBlank _ hblank),
              commentPieces_cons _ _ _ (standsAlone_of_isBlank hblank),
              ih [] fun d hd => absurd hd List.not_mem_nil, List.append_assoc]
            rfl
        | false =>
            have halone : standsAlone c = false := by
              rw [standsAlone, decide_eq_false hfeed, hblank, Bool.or_self]
            rw [run_of_gather (step_lineComment_of_not_standsAlone gathered halone),
              ih _ (unbroken_append h halone), List.append_assoc, List.singleton_append]

/-- In a block comment a character that stands alone ends what was gathered and is a
    piece of its own. -/
theorem step_blockComment_of_standsAlone (pending : List Char) {c : Char}
    (h : standsAlone c = true) :
    step ⟨.blockComment, pending⟩ c = cut ⟨.blockComment, pending⟩ (piece .blockComment [c]) := by
  by_cases hfeed : c = '\n'
  · rw [hfeed]
    rfl
  · -- What stands alone and is no line break is a blank, and so it is no star.
    have hblank : Text.isBlank c = true := by
      rw [standsAlone, decide_eq_false hfeed, Bool.false_or] at h
      exact h
    have hstar : c ≠ '*' := fun hc => absurd hblank (by rw [hc]; decide)
    rw [step_blockComment, pushBlockComment, if_neg hfeed, if_neg hstar, if_pos hblank,
      piece_of_isBlank _ hblank]

theorem step_blockComment_of_not_standsAlone (gathered : List Char) {c : Char}
    (h : standsAlone c = false) (hstar : c ≠ '*') :
    step ⟨.blockComment, gathered.reverse⟩ c
      = ([], ⟨.blockComment, (gathered ++ [c]).reverse⟩) := by
  rw [standsAlone, Bool.or_eq_false_iff, decide_eq_false_iff_not] at h
  rw [step_blockComment, pushBlockComment, if_neg h.1, if_neg hstar,
    if_neg (Bool.eq_false_iff.mp h.2), gather_reverse]

/-- A block comment in which some text has been gathered goes through the star and
    slash that close it. -/
def RunsBlockComment (text : List Char) : Prop :=
  ∀ gathered : List Char, (∀ c ∈ gathered, standsAlone c = false) →
    run ⟨.blockComment, gathered.reverse⟩ text
      = pieces .blockComment togetherInComment (gathered ++ (throughClose text).1)
        ++ run {} (throughClose text).2

/-- The same behind a star. The grammar still has that star in front of it. -/
def RunsBlockStar (text : List Char) : Prop :=
  ∀ gathered : List Char, (∀ c ∈ gathered, standsAlone c = false) →
    run ⟨.blockStar, (gathered ++ ['*']).reverse⟩ text
      = pieces .blockComment togetherInComment (gathered ++ (throughClose ('*' :: text)).1)
        ++ run {} (throughClose ('*' :: text)).2

theorem standsAlone_star : standsAlone '*' = false := rfl

/-- One more character in front of a block comment whose rest is known, from either
    mode. -/
theorem runsBlockComment_cons {text : List Char} (hblock : RunsBlockComment text)
    (hstar : RunsBlockStar text) (c : Char) : RunsBlockComment (c :: text) := by
  intro gathered h
  by_cases hc : c = '*'
  · -- The scanner goes behind the star, where the other statement takes over.
    rw [hc, ← hstar gathered h, List.reverse_append]
    rfl
  · rw [throughClose_cons_of_ne text hc]
    cases halone : standsAlone c with
    | true =>
        rw [run_of_cut .blockComment gathered text c h (step_blockComment_of_standsAlone _ halone),
          commentPieces_cons _ _ _ halone, hblock [] fun d hd => absurd hd List.not_mem_nil,
          List.append_assoc]
        rfl
    | false =>
        rw [run_of_gather (step_blockComment_of_not_standsAlone gathered halone hc),
          hblock _ (unbroken_append h halone), List.append_assoc, List.singleton_append]

/-- Behind a star the character is read as in the comment itself, unless it is a
    slash, which closes the comment, or one more star. -/
theorem runsBlockStar_cons {text : List Char} {c : Char} (hcons : RunsBlockComment (c :: text))
    (hstar : RunsBlockStar text) : RunsBlockStar (c :: text) := by
  intro gathered h
  have hopen := unbroken_append h standsAlone_star
  by_cases hslash : c = '/'
  · have hflush := flush_unbroken .blockStar _ (unbroken_append (c := '/') hopen rfl)
    rw [List.reverse_append, List.append_assoc] at hflush
    rw [hslash, throughClose_star_slash, run_cons, step_blockStar, if_pos rfl]
    exact congrArg (· ++ run {} text) hflush
  · rw [throughClose_star_cons text hslash]
    by_cases hc : c = '*'
    · -- The star before stays in the comment and this one takes its place.
      have hrest := hstar (gathered ++ ['*']) hopen
      rw [List.reverse_append, List.append_assoc] at hrest
      rw [hc, run_cons, step_blockStar, if_neg (by decide), if_pos rfl]
      exact hrest
    · -- The star closed nothing, so the comment goes on as if it were plain text.
      have hsame : run ⟨.blockStar, (gathered ++ ['*']).reverse⟩ (c :: text)
          = run ⟨.blockComment, (gathered ++ ['*']).reverse⟩ (c :: text) := by
        rw [run_cons, run_cons, step_blockStar, if_neg hslash, if_neg hc, step_blockComment]
      rw [hsame, hcons _ hopen, List.append_assoc, List.singleton_append]

/-- The rest of a block comment, from either of its modes. The two need each other:
    a star leads from one to the other, and anything but the closing slash leads
    back. -/
theorem run_blockComment_and_star (text : List Char) :
    RunsBlockComment text ∧ RunsBlockStar text := by
  induction text with
  | nil =>
      -- A comment that is not closed takes all the text, and what is held is its last piece.
      refine ⟨fun gathered h => ?_, fun gathered h => ?_⟩
      · rw [throughClose, List.append_nil]
        exact (flush_unbroken .blockComment gathered h).trans (List.append_nil _).symm
      · exact (flush_unbroken .blockStar _ (unbroken_append h standsAlone_star)).trans
          (List.append_nil _).symm
  | cons c text ih =>
      have hcons := runsBlockComment_cons ih.1 ih.2 c
      exact ⟨hcons, runsBlockStar_cons hcons ih.2⟩

/-! ### Literals -/

/-- What a literal does with a character that neither ends it nor breaks the line. -/
theorem step_literal_of_not_mark (quote : Quote) (passed pending : List Char) {c : Char}
    (hfeed : c ≠ '\n') (hmark : ¬ (c = quote.mark ∧ escapes passed = false)) :
    step ⟨.literal quote (escapes passed), pending⟩ c
      = ([], ⟨.literal quote (escapes (c :: passed)), (Text.expand c).reverse ++ pending⟩) := by
  rw [step_literal, pushLiteral, if_neg hfeed, if_neg hmark, escapes_cons]
  -- A backslash sets the flag unless it is escaped itself, and anything else clears it.
  cases escapes passed with
  | true => rw [if_neg (fun h => Bool.noConfusion h.2), Bool.not_true, Bool.and_false]
  | false =>
      by_cases hslash : c = '\\'
      · rw [if_pos ⟨hslash, rfl⟩, hslash]
        rfl
      · rw [if_neg (fun h => hslash h.1), decide_eq_false hslash, Bool.false_and]

/-- What a literal holds at the end of the text is one piece, or none if nothing is
    held. -/
theorem flush_literal (quote : Quote) (escaped : Bool) {raw : List Char} (h : '\n' ∉ raw) :
    flush ⟨.literal quote escaped, (raw.flatMap Text.expand).reverse⟩
      = pieces quote.kind togetherInLiteral raw := by
  cases raw with
  | nil => rfl
  | cons c raw =>
      have hne : (c :: raw).flatMap Text.expand ≠ [] := by
        rw [List.flatMap_cons, Text.expand]
        split <;> exact List.cons_ne_nil _ _
      rw [literalPieces_unbroken _ (List.cons_ne_nil c raw) h, flush_reverse _ _ hne]
      rfl

theorem expand_mark (quote : Quote) : Text.expand quote.mark = [quote.mark] := by
  cases quote <;> rfl

/-- The rest of a literal, through the mark that closes it. `raw` is what stands
    in the literal since its last line break, and `passed` all that the escape
    flag depends on. -/
theorem run_literal (quote : Quote) (raw passed text : List Char) (h : '\n' ∉ raw) :
    run ⟨.literal quote (escapes passed), (raw.flatMap Text.expand).reverse⟩ text
      = pieces quote.kind togetherInLiteral (raw ++ (throughMark quote.mark passed text).1)
        ++ run {} (throughMark quote.mark passed text).2 := by
  induction text generalizing raw passed with
  | nil =>
      rw [throughMark, List.append_nil]
      exact (flush_literal quote _ h).trans (List.append_nil _).symm
  | cons c text ih =>
      have hmarkFeed : quote.mark ≠ '\n' := by cases quote <;> decide
      by_cases hfeed : c = '\n'
      · -- A line break is no backslash, so the flag it clears is the parity behind it.
        have hrest := ih [] (c :: passed) List.not_mem_nil
        rw [throughMark, if_neg (fun hc => hmarkFeed (hc.1.symm.trans hfeed)), run_cons,
          step_literal, pushLiteral, if_pos hfeed, flush_literal quote _ h]
        rw [escapes_cons, hfeed] at hrest
        rw [hfeed, literalPieces_cons, List.append_assoc, List.append_assoc, List.cons_append]
        exact congrArg (fun fragments => _ ++ .lineBreak :: fragments) hrest
      · have hmore : '\n' ∉ raw ++ [c] :=
          List.not_mem_append h fun hmem => hfeed (List.mem_singleton.mp hmem).symm
        by_cases hmark : c = quote.mark ∧ escapes passed = false
        · rw [throughMark, if_pos hmark, run_cons, step_literal, pushLiteral, if_neg hfeed,
            if_pos hmark, ← flush_literal quote (escapes passed) hmore, List.flatMap_append,
            List.flatMap_singleton, hmark.1, expand_mark, List.reverse_append]
          rfl
        · have hrest := ih (raw ++ [c]) (c :: passed) hmore
          rw [List.flatMap_append, List.flatMap_singleton, List.reverse_append] at hrest
          rw [throughMark, if_neg hmark,
            run_of_gather (step_literal_of_not_mark quote passed _ hfeed hmark), hrest,
            List.append_assoc, List.singleton_append]

/-! ### Lexemes -/

/-- Behind a slash that is held back the three forms of its lexeme part. -/
theorem run_slash (text : List Char) :
    run ⟨.slash, ['/']⟩ text = (slashLexeme text).1 ++ run {} (slashLexeme text).2 := by
  have hnone : ∀ c ∈ ['/', '/'], standsAlone c = false :=
    List.forall_mem_cons.mpr ⟨rfl, List.forall_mem_singleton.mpr rfl⟩
  have hopen : ∀ c ∈ ['/', '*'], standsAlone c = false :=
    List.forall_mem_cons.mpr ⟨rfl, List.forall_mem_singleton.mpr rfl⟩
  -- The opening of a comment is held as it stands and belongs to the first piece.
  fun_cases slashLexeme text with
  | case1 rest => exact run_lineComment ['/', '/'] rest hnone
  | case2 rest => exact (run_blockComment_and_star rest).1 ['/', '*'] hopen
  | case3 text hline hblock =>
      cases text with
      | nil => rfl
      | cons c text =>
          have hc : c ≠ '/' := fun hc => hline text (by rw [hc])
          have hstar : c ≠ '*' := fun hstar => hblock text (by rw [hstar])
          rw [run_cons, step_slash, if_neg hstar, if_neg hc]
          rfl

/-- A literal is read from its opening mark on. The mark has been passed and escapes
    nothing. -/
theorem run_literal_mark (quote : Quote) (text : List Char) :
    run ⟨.literal quote false, [quote.mark]⟩ text
      = (literalLexeme quote text).1 ++ run {} (literalLexeme quote text).2 := by
  have hmark : '\n' ∉ [quote.mark] := by cases quote <;> decide
  -- The opening mark does not escape what comes behind it.
  have hescapes : escapes [quote.mark] = false := by cases quote <;> rfl
  have hrun := run_literal quote [quote.mark] [quote.mark] text hmark
  rw [hescapes, List.flatMap_singleton, expand_mark] at hrun
  exact hrun

/-- A run of a fresh scanner begins with the first lexeme of the text, and goes
    on behind it with a fresh scanner. -/
theorem run_lexeme (c : Char) (text : List Char) :
    run {} (c :: text) = (lexeme c text).1 ++ run {} (lexeme c text).2 := by
  rw [lexeme]
  -- Each first character leads to a mode whose run is known, and plain ones come last.
  split_ifs with hfeed hspace htab hslash hdouble hsingle hdelimiter
  · rw [hfeed]
    rfl
  · rw [hspace]
    rfl
  · rw [htab]
    rfl
  · rw [hslash, ← run_slash]
    rfl
  · rw [hdouble, ← run_literal_mark]
    rfl
  · rw [hsingle, ← run_literal_mark]
    rfl
  · have hdoubleMark : c ≠ Quote.double.mark := hdouble
    have hsingleMark : c ≠ Quote.single.mark := hsingle
    have hstep : step {} c = ([], ⟨.delimiters, [c]⟩) := by
      rw [step_code, pushCode, if_neg hfeed, if_neg hslash, if_neg hdoubleMark,
        if_neg hsingleMark, if_pos hdelimiter]
      rfl
    rw [run_of_gather hstep, run_delimiters, ← List.reverse_cons,
      flush_reverse _ _ (List.cons_ne_nil _ _)]
    rfl
  · have hplain : isPlain c = true := (isPlain_iff c).mpr
      ⟨hfeed, hspace, htab, hslash, hdouble, hsingle, Bool.eq_false_iff.mpr hdelimiter⟩
    have hstep : step {} c = ([], ⟨.code, [c]⟩) := pushCode_of_isPlain {} hplain
    rw [run_of_gather hstep, run_code, ← List.reverse_cons,
      flush_reverse _ _ (List.cons_ne_nil _ _)]
    rfl

/-- A fresh scanner reads any text as its lexemes. -/
theorem run_eq_lexemes (text : List Char) : run {} text = lexemes text := by
  -- The induction is that of the grammar: the rest behind a lexeme is shorter.
  induction text using lexemes.induct with
  | case1 =>
      rw [lexemes]
      rfl
  | case2 c text ih => rw [lexemes, run_lexeme, ih]

end Scanner

/-- Scanning gives the fragments of the lexemes of the text, byte order mark and
    carriage returns left out. -/
theorem Fragment.scan_eq_lexemes (text : List Char) :
    Fragment.scan text = lexemes ((Text.stripMark text).filter (· ≠ '\r')) := by
  rw [Fragment.scan_eq_run, Scanner.run_eq_lexemes]

end SourceTexture
