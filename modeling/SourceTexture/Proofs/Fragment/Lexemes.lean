import SourceTexture.Fragment.Scanner
import Mathlib.Data.List.SplitBy
import Mathlib.Data.List.TakeWhile

/-!
# Lexemes

The raw fragments of a text, read off as a grammar would read them.

A scanner sees one character at a time and has to remember what it is in the
middle of. A grammar has the whole text in view: it looks at what the text
begins with, takes a lexeme as far as it goes, and starts again behind it. The
two describe the same division, and the second is the one a reader can check
against the language: longest runs, the first star and slash behind the opening
of a comment, the first mark that no backslash speaks for.

Comments and literals are regions: first the region is taken as a stretch of
text, and only then is it divided into fragments. In a comment every blank is a
piece by itself, in a literal blanks stay where they are, and in both a line
break is a fragment of its own. `List.splitBy` makes the division, so that all
a kind of region has to say is which neighbours stay together.

What a text is read into is a function, `lexemes`, and a relation, `Reads`. The
function says that there is a reading and only one. The relation is the one to
argue from: its induction hands over lexemes one by one, and each in one of the
eight forms of `LexemeForm`, with what is known about the text where it stands.

The text is taken to hold no byte order mark and no carriage return.

## Main definitions

* `isPlain`: The characters words are made of.
* `pieces`: The fragments of a region.
* `throughClose`: A text up to the end of a block comment, and the rest.
* `throughMark`: A text up to the end of a literal, and the rest.
* `lexeme`: The first lexeme of a text, and the rest.
* `lexemes`: The fragments of a text, lexeme by lexeme.
* `LexemeForm`: The forms of a lexeme.
* `Reads`: A text read lexeme by lexeme, as a relation.

## Theorems

* `lexeme_rest_le`: A lexeme takes at least its first character.
* `lexeme_form`: Every lexeme has one of the forms.
* `reads_lexemes`: The fragments of a text are what it is read into.
* `pieces_append_cons`: A region may be divided at a character that stands
  alone.
* `pieces_of_together`: Characters that stay together are one piece.
* `commentPieces_cons`, `literalPieces_cons`: Where comments and literals may be
  divided.
* `throughClose_star_cons`: A star that no slash follows closes nothing.
* `escapes_cons`: How the parity of backslashes goes on.
-/

namespace SourceTexture

/-- Whether a character may stand in a word: every other character ends one. -/
def isPlain (c : Char) : Bool :=
  !(c = '\n' || c = '/' || c = Quote.double.mark || c = Quote.single.mark || isDelimiter c ||
    Text.isBlank c)

/-- Whether a character stands alone inside a comment. -/
def standsAlone (c : Char) : Bool :=
  c = '\n' || Text.isBlank c

/-- Whether two neighbours in a comment belong to one piece of it. -/
def togetherInComment (a b : Char) : Bool :=
  !standsAlone a && !standsAlone b

/-- Whether two neighbours in a literal belong to one piece of it. -/
def togetherInLiteral (a b : Char) : Bool :=
  a ≠ '\n' && b ≠ '\n'

/-- The fragment of one piece of a region. -/
def piece (kind : Kind) (text : List Char) : Fragment :=
  if text = ['\n'] then .lineBreak else ⟨kind, text.flatMap Text.expand⟩

/-- The fragments of a region, cut between neighbours that do not belong
    together. -/
def pieces (kind : Kind) (together : Char → Char → Bool) (region : List Char) : List Fragment :=
  (region.splitBy together).map (piece kind)

/-- The text through the first star that a slash follows, and the rest. Without
    one the comment takes the whole text. -/
def throughClose : List Char → List Char × List Char
  | [] => ([], [])
  | '*' :: '/' :: rest => (['*', '/'], rest)
  | c :: rest => (c :: (throughClose rest).1, (throughClose rest).2)

/-- Whether the text passed so far, latest character first, ends in an odd number
    of backslashes: every second one is itself escaped. -/
def escapes (passed : List Char) : Bool :=
  (passed.takeWhile (· = '\\')).length % 2 = 1

/-- The text through the first mark that is not escaped, and the rest. Without
    one the literal takes the whole text. -/
def throughMark (mark : Char) (passed : List Char) : List Char → List Char × List Char
  | [] => ([], [])
  | c :: rest =>
    if c = mark ∧ escapes passed = false then ([c], rest)
    else (c :: (throughMark mark (c :: passed) rest).1, (throughMark mark (c :: passed) rest).2)

/-- The lexeme of a slash before the given text: either kind of comment, or the
    slash by itself. -/
def slashLexeme : List Char → List Fragment × List Char
  | '/' :: rest =>
    (pieces .lineComment togetherInComment ('/' :: '/' :: rest.takeWhile (· ≠ '\n')),
      rest.dropWhile (· ≠ '\n'))
  | '*' :: rest =>
    (pieces .blockComment togetherInComment ('/' :: '*' :: (throughClose rest).1),
      (throughClose rest).2)
  | rest => ([⟨.delimiter, ['/']⟩], rest)

/-- The lexeme of a mark before the given text. -/
def literalLexeme (quote : Quote) (rest : List Char) : List Fragment × List Char :=
  (pieces quote.kind togetherInLiteral
      (quote.mark :: (throughMark quote.mark [quote.mark] rest).1),
    (throughMark quote.mark [quote.mark] rest).2)

/-- The fragments of the lexeme that begins with a character, and the text behind
    it. -/
def lexeme (c : Char) (rest : List Char) : List Fragment × List Char :=
  if c = '\n' then ([.lineBreak], rest)
  else if c = ' ' then ([⟨.space, [' ']⟩], rest)
  else if c = '\t' then ([⟨.space, [' ', ' ', ' ', ' ']⟩], rest)
  else if c = '/' then slashLexeme rest
  else if c = '"' then literalLexeme .double rest
  else if c = '\'' then literalLexeme .single rest
  else if isDelimiter c then
    ([⟨.delimiter, c :: rest.takeWhile isDelimiter⟩], rest.dropWhile isDelimiter)
  else ([⟨.undefined, c :: rest.takeWhile isPlain⟩], rest.dropWhile isPlain)

/-- A plain character is none of those a lexeme of another sort begins with. -/
theorem isPlain_iff (c : Char) :
    isPlain c = true ↔ c ≠ '\n' ∧ c ≠ ' ' ∧ c ≠ '\t' ∧ c ≠ '/' ∧ c ≠ '"' ∧ c ≠ '\'' ∧
      isDelimiter c = false := by
  simp only [isPlain, Text.isBlank, Bool.not_eq_true', Bool.or_eq_false_iff,
    decide_eq_false_iff_not]
  constructor
  · rintro ⟨⟨⟨⟨⟨hfeed, hslash⟩, hdouble⟩, hsingle⟩, hdelimiter⟩, hspace, htab⟩
    exact ⟨hfeed, hspace, htab, hslash, hdouble, hsingle, hdelimiter⟩
  · rintro ⟨hfeed, hspace, htab, hslash, hdouble, hsingle, hdelimiter⟩
    exact ⟨⟨⟨⟨⟨hfeed, hslash⟩, hdouble⟩, hsingle⟩, hdelimiter⟩, hspace, htab⟩

/-- Looking for the end of a comment leaves a part of the text. -/
theorem throughClose_rest_le (text : List Char) :
    (throughClose text).2.length ≤ text.length := by
  fun_induction throughClose text with
  | case1 => exact Nat.le_refl _
  | case2 rest =>
      simp only [List.length_cons]
      omega
  | case3 c rest _ ih =>
      simp only [List.length_cons]
      omega

/-- Looking for the end of a literal does too, whatever was passed before. -/
theorem throughMark_rest_le (mark : Char) (passed text : List Char) :
    (throughMark mark passed text).2.length ≤ text.length := by
  induction text generalizing passed with
  | nil => exact Nat.le_refl _
  | cons c rest ih =>
      have hrest := ih (c :: passed)
      rw [throughMark]
      split
      · exact Nat.le_succ _
      · simp only [List.length_cons]
        omega

/-- What begins with a slash leaves a part of the text behind the slash. -/
theorem slashLexeme_rest_le (text : List Char) : (slashLexeme text).2.length ≤ text.length := by
  fun_cases slashLexeme text with
  | case1 rest =>
      have h := List.length_dropWhile_le (· ≠ '\n') rest
      simp only [List.length_cons]
      omega
  | case2 rest =>
      have h := throughClose_rest_le rest
      simp only [List.length_cons]
      omega
  | case3 => exact Nat.le_refl _

/-- A lexeme takes at least the character it begins with. -/
theorem lexeme_rest_le (c : Char) (rest : List Char) :
    (lexeme c rest).2.length ≤ rest.length := by
  rw [lexeme]
  -- Lexemes of one character leave all that is behind it, and the others a part of that.
  split_ifs
  · exact Nat.le_refl _
  · exact Nat.le_refl _
  · exact Nat.le_refl _
  · exact slashLexeme_rest_le rest
  · exact throughMark_rest_le _ _ rest
  · exact throughMark_rest_le _ _ rest
  · exact List.length_dropWhile_le _ rest
  · exact List.length_dropWhile_le _ rest

/-- The fragments of a text, lexeme by lexeme until nothing is left. -/
def lexemes : List Char → List Fragment
  | [] => []
  | c :: rest => (lexeme c rest).1 ++ lexemes (lexeme c rest).2
termination_by text => text.length
decreasing_by exact Nat.lt_succ_of_le (lexeme_rest_le c rest)

/-! ### Forms of a lexeme -/

/-- The forms of a lexeme: the character it begins with and the text behind that
    character, the fragments of the lexeme, and the text behind the lexeme. -/
inductive LexemeForm : Char → List Char → List Fragment → List Char → Prop where
  | lineBreak (rest : List Char) : LexemeForm '\n' rest [.lineBreak] rest
  | blank {c : Char} (h : Text.isBlank c = true) (rest : List Char) :
      LexemeForm c rest [⟨.space, Text.expand c⟩] rest
  | slash {rest : List Char} (h : ∀ c ∈ rest.head?, c ≠ '/' ∧ c ≠ '*') :
      LexemeForm '/' rest [⟨.delimiter, ['/']⟩] rest
  | lineComment (rest : List Char) :
      LexemeForm '/' ('/' :: rest)
        (pieces .lineComment togetherInComment ('/' :: '/' :: rest.takeWhile (· ≠ '\n')))
        (rest.dropWhile (· ≠ '\n'))
  | blockComment (rest : List Char) :
      LexemeForm '/' ('*' :: rest)
        (pieces .blockComment togetherInComment ('/' :: '*' :: (throughClose rest).1))
        (throughClose rest).2
  | literal (quote : Quote) (rest : List Char) :
      LexemeForm quote.mark rest (literalLexeme quote rest).1 (literalLexeme quote rest).2
  | delimiters {c : Char} (h : isDelimiter c = true) (rest : List Char) :
      LexemeForm c rest [⟨.delimiter, c :: rest.takeWhile isDelimiter⟩]
        (rest.dropWhile isDelimiter)
  | word {c : Char} (h : isPlain c = true) (rest : List Char) :
      LexemeForm c rest [⟨.undefined, c :: rest.takeWhile isPlain⟩] (rest.dropWhile isPlain)

/-- What begins with a slash has one of three forms, told apart by the next
    character. -/
theorem slashLexeme_form (rest : List Char) :
    LexemeForm '/' rest (slashLexeme rest).1 (slashLexeme rest).2 := by
  fun_cases slashLexeme rest with
  | case1 rest => exact .lineComment rest
  | case2 rest => exact .blockComment rest
  | case3 rest hline hblock =>
      -- No comment begins here, so neither of its second characters comes next.
      refine .slash fun c hc => ?_
      cases rest with
      | nil => exact absurd hc (Option.not_mem_none c)
      | cons d rest =>
          rw [List.head?_cons, Option.mem_some_iff] at hc
          rw [← hc]
          exact ⟨fun hd => hline rest (by rw [hd]), fun hd => hblock rest (by rw [hd])⟩

/-- Every lexeme has a form. The rules are tried in a fixed order, but no first
    character belongs to two of the forms. -/
theorem lexeme_form (c : Char) (rest : List Char) :
    LexemeForm c rest (lexeme c rest).1 (lexeme c rest).2 := by
  rw [lexeme]
  split_ifs with hfeed hspace htab hslash hdouble hsingle hdelimiter
  · rw [hfeed]
    exact .lineBreak rest
  · rw [hspace]
    exact .blank rfl rest
  · rw [htab]
    exact .blank rfl rest
  · rw [hslash]
    exact slashLexeme_form rest
  · rw [hdouble]
    exact .literal .double rest
  · rw [hsingle]
    exact .literal .single rest
  · exact .delimiters hdelimiter rest
  · -- What is left when all other first characters are excluded is plain.
    exact .word ((isPlain_iff c).mpr
      ⟨hfeed, hspace, htab, hslash, hdouble, hsingle, Bool.eq_false_iff.mpr hdelimiter⟩) rest

/-- A text read lexeme by lexeme, with the fragments it is read into. -/
inductive Reads : List Char → List Fragment → Prop where
  | nil : Reads [] []
  | cons {c : Char} {rest after : List Char} {fs gs : List Fragment}
      (hform : LexemeForm c rest fs after) (hafter : Reads after gs) :
      Reads (c :: rest) (fs ++ gs)

/-- Any text is read as its lexemes, one after the other. -/
theorem reads_lexemes (text : List Char) : Reads text (lexemes text) := by
  induction text using lexemes.induct with
  | case1 =>
      rw [lexemes]
      exact .nil
  | case2 c rest ih =>
      rw [lexemes]
      exact .cons (lexeme_form c rest) ih

/-! ### Regions -/

/-- A region may be divided at a character that belongs together with nothing
    before it and nothing behind it. -/
theorem pieces_append_cons (kind : Kind) (together : Char → Char → Bool)
    (front back : List Char) (c : Char)
    (hfront : ∀ a, together a c = false) (hback : ∀ b, together c b = false) :
    pieces kind together (front ++ c :: back)
      = pieces kind together front ++ piece kind [c] :: pieces kind together back := by
  -- The character begins a piece, because nothing before it belongs to it.
  have hcut : (front ++ c :: back).splitBy together
      = front.splitBy together ++ (c :: back).splitBy together :=
    List.splitBy_append_cons back (fun a _ => hfront a)
  -- And it ends that piece, because nothing behind it does.
  have hone : ([c] ++ back).splitBy together = [c].splitBy together ++ back.splitBy together :=
    List.splitBy_append (fun a ha b _ => by
      rw [List.getLast?_singleton, Option.mem_some_iff] at ha
      rw [← ha]
      exact hback b)
  rw [pieces, hcut, List.map_append, ← List.singleton_append, hone, List.map_append]
  rfl

/-- Characters that all stay together are one piece. -/
theorem pieces_of_together (kind : Kind) (together : Char → Char → Bool) (text : List Char)
    (hne : text ≠ []) (h : ∀ a ∈ text, ∀ b ∈ text, together a b = true) :
    pieces kind together text = [piece kind text] := by
  have hchain : text.IsChain fun a b => together a b :=
    (List.pairwise_of_forall_mem_list h).isChain
  rw [pieces, List.splitBy_of_isChain hne hchain]
  rfl

theorem piece_of_not_mem (kind : Kind) {text : List Char} (h : '\n' ∉ text) :
    piece kind text = ⟨kind, text.flatMap Text.expand⟩ :=
  if_neg fun hc => h (by rw [hc]; exact List.mem_singleton_self _)

/-! ### Comments -/

/-- Text without a tab is what it is worth. -/
theorem Text.flatMap_expand_of_not_mem {text : List Char} (h : '\t' ∉ text) :
    text.flatMap Text.expand = text := by
  induction text with
  | nil => rfl
  | cons c text ih =>
      have hc : c ≠ '\t' := fun hc => h (by rw [hc]; exact List.mem_cons_self)
      rw [List.flatMap_cons, ih fun hmem => h (List.mem_cons_of_mem c hmem), Text.expand, if_neg hc]
      rfl

theorem standsAlone_of_isBlank {c : Char} (h : Text.isBlank c = true) : standsAlone c = true := by
  rw [standsAlone, h, Bool.or_true]

theorem togetherInComment_of_standsAlone {c : Char} (h : standsAlone c = true) (a : Char) :
    togetherInComment a c = false ∧ togetherInComment c a = false := by
  rw [togetherInComment, togetherInComment, h]
  exact ⟨Bool.and_false _, Bool.false_and _⟩

theorem commentPieces_cons (kind : Kind) (front back : List Char) {c : Char}
    (h : standsAlone c = true) :
    pieces kind togetherInComment (front ++ c :: back)
      = pieces kind togetherInComment front ++ piece kind [c]
        :: pieces kind togetherInComment back :=
  pieces_append_cons kind togetherInComment front back c
    (fun a => (togetherInComment_of_standsAlone h a).1)
    (fun b => (togetherInComment_of_standsAlone h b).2)

/-- A stretch of a comment in which no character stands alone is one piece, held as it
    stands. -/
theorem commentPieces_unbroken (kind : Kind) {text : List Char} (hne : text ≠ [])
    (h : ∀ c ∈ text, standsAlone c = false) :
    pieces kind togetherInComment text = [⟨kind, text⟩] := by
  -- Line breaks and tabs stand alone, so the text has none of them.
  have hfeed : '\n' ∉ text := fun hmem => Bool.noConfusion (h _ hmem)
  have htab : '\t' ∉ text := fun hmem => Bool.noConfusion (h _ hmem)
  rw [pieces_of_together kind togetherInComment text hne fun a ha b hb => by
      rw [togetherInComment, h a ha, h b hb]; rfl,
    piece_of_not_mem kind hfeed, Text.flatMap_expand_of_not_mem htab]

theorem throughClose_star_slash (rest : List Char) :
    throughClose ('*' :: '/' :: rest) = (['*', '/'], rest) := by
  rw [throughClose]

theorem throughClose_cons_of_ne {c : Char} (rest : List Char) (h : c ≠ '*') :
    throughClose (c :: rest) = (c :: (throughClose rest).1, (throughClose rest).2) := by
  rw [throughClose]
  exact fun _ hc => absurd hc h

theorem throughClose_star_cons {c : Char} (rest : List Char) (h : c ≠ '/') :
    throughClose ('*' :: c :: rest)
      = ('*' :: (throughClose (c :: rest)).1, (throughClose (c :: rest)).2) := by
  rw [throughClose]
  intro _ _ hc
  exact h (List.cons.inj hc).1

/-! ### Literals -/

/-- A backslash behind the passed text is escaped or escapes; no other character
    does either. -/
theorem escapes_cons (c : Char) (passed : List Char) :
    escapes (c :: passed) = (decide (c = '\\') && !escapes passed) := by
  rw [escapes, escapes]
  by_cases hc : c = '\\'
  · -- One more backslash turns the parity round.
    rw [List.takeWhile_cons_of_pos (by simpa only [decide_eq_true_eq] using hc), List.length_cons]
    simp only [hc, decide_true, Bool.true_and]
    rcases Nat.mod_two_eq_zero_or_one (passed.takeWhile (· = '\\')).length with hm | hm
    · rw [hm, Nat.add_mod, hm]
      rfl
    · rw [hm, Nat.add_mod, hm]
      rfl
  · rw [List.takeWhile_cons_of_neg (by simpa only [decide_eq_true_eq] using hc)]
    simp only [hc, decide_false, Bool.false_and]
    rfl

theorem togetherInLiteral_lineBreak (a : Char) :
    togetherInLiteral a '\n' = false ∧ togetherInLiteral '\n' a = false := by
  constructor
  · exact Bool.and_false _
  · exact Bool.false_and _

theorem literalPieces_cons (kind : Kind) (front back : List Char) :
    pieces kind togetherInLiteral (front ++ '\n' :: back)
      = pieces kind togetherInLiteral front ++ .lineBreak
        :: pieces kind togetherInLiteral back :=
  pieces_append_cons kind togetherInLiteral front back '\n'
    (fun a => (togetherInLiteral_lineBreak a).1) (fun b => (togetherInLiteral_lineBreak b).2)

/-- A stretch of a literal without a line break is one piece, its tabs expanded. -/
theorem literalPieces_unbroken (kind : Kind) {text : List Char} (hne : text ≠ [])
    (h : '\n' ∉ text) :
    pieces kind togetherInLiteral text = [⟨kind, text.flatMap Text.expand⟩] := by
  have hplain : ∀ c ∈ text, decide (c ≠ '\n') = true := fun c hc =>
    decide_eq_true fun heq => h (heq ▸ hc)
  rw [pieces_of_together kind togetherInLiteral text hne fun a ha b hb => by
      rw [togetherInLiteral, hplain a ha, hplain b hb]; rfl,
    piece_of_not_mem kind h]

end SourceTexture
