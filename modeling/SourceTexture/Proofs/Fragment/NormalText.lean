import SourceTexture.Proofs.Fragment.Isolation

/-!
# What a text comes down to

Two texts with the same normal text have the same fragments and the same layout.

Line breaks may be written with a carriage return or without, a stray carriage
return may stand anywhere but in front of a byte order mark at the beginning, and
a tab may be written as the four blanks it is worth. The scanner is not blind to
the last of these. It hands out a tab as one fragment of four blanks and four
blanks as four fragments, so its output tells the two apart, except in a literal,
where all blanks are gathered. Condensing removes the difference, because blanks
are handed out as a kind that is joined.

The difference must not last beyond the blanks, and that is a matter of modes. A
blank resolves whatever was left open: a slash that was held back, a star that
might have closed a comment, a backslash that waited for the next character. It
leaves the scanner in a mode in which further blanks change nothing more, so one
blank and four lead to the same place, and what follows is read alike.

The exception has nothing to do with the scanner. A byte order mark is dropped before
scanning begins and carriage returns only then, so behind a carriage return there is
no mark in front any more, and it is read as a character of the text.

## Main definitions

* `Mode.afterBlank`: The mode behind a blank.
* `Mode.blankKind`: The kind of a blank read in a mode.
* `Settings.Agree`: Two texts have the same fragments and the same layout.

## Theorems

* `Scanner.run_blanks`, `Scanner.run_blanks_literal`: What a run of blanks does.
* `Scanner.condensed_run_blanks`: What counts is the text the blanks are worth.
* `Scanner.condensed_run_expand`: Tabs may be expanded before scanning.
* `Settings.fragments_eq_normalize`: Fragments are a function of the normal text.
* `Text.normalize_carriageReturn_iff`: Where a carriage return leaves the normal text
  as it is.
* `Settings.agree_iff`, `Settings.normal_text_decides`: Texts agree if their normal
  texts do.
* `Settings.carriageReturn_before_mark`: A carriage return that makes a difference.
-/

namespace SourceTexture

/-- The mode a blank leaves the scanner in: nothing that was left open before it
    is left open behind it. -/
def Mode.afterBlank : Mode → Mode
  | code | slash | delimiters => .code
  | literal quote _ => .literal quote false
  | blockComment | blockStar => .blockComment
  | lineComment => .lineComment

/-- The kind of a blank that is read in a mode. -/
def Mode.blankKind : Mode → Kind
  | code | slash | delimiters => .space
  | literal quote _ => quote.kind
  | blockComment | blockStar => .blockComment
  | lineComment => .lineComment

theorem Mode.afterBlank_afterBlank (mode : Mode) :
    mode.afterBlank.afterBlank = mode.afterBlank := by
  cases mode <;> rfl

theorem Mode.blankKind_afterBlank (mode : Mode) :
    mode.afterBlank.blankKind = mode.blankKind := by
  cases mode <;> rfl

theorem Mode.mergeable_blankKind (mode : Mode) : mode.blankKind.mergeable = true := by
  cases mode with
  | literal quote escaped => cases quote <;> rfl
  | _ => rfl

/-- The fragment of a blank that is read in a mode. -/
def Mode.blank (mode : Mode) (c : Char) : Fragment := ⟨mode.blankKind, Text.expand c⟩

namespace Scanner

/-! ### Steps -/

/-- A blank is none of the characters that the modes look out for. -/
theorem ne_of_isBlank {c d : Char} (h : Text.isBlank c = true) (hd : Text.isBlank d = false) :
    c ≠ d := by
  intro hc
  rw [hc, hd] at h
  exact Bool.noConfusion h

theorem isDelimiter_of_isBlank {c : Char} (h : Text.isBlank c = true) :
    isDelimiter c = false := by
  rcases (Text.isBlank_iff c).mp h with h | h <;> (rw [h]; rfl)

theorem pushCode_of_isBlank (s : Scanner) {c : Char} (h : Text.isBlank c = true) :
    s.pushCode c = s.cut ⟨.space, Text.expand c⟩ := by
  rw [pushCode, if_neg (ne_of_isBlank h rfl), if_neg (ne_of_isBlank h rfl),
    if_neg (ne_of_isBlank h rfl), if_neg (ne_of_isBlank h rfl),
    if_neg (Bool.eq_false_iff.mp (isDelimiter_of_isBlank h)), if_pos h]

theorem pushBlockComment_of_isBlank (s : Scanner) {c : Char} (h : Text.isBlank c = true) :
    s.pushBlockComment c = s.cut ⟨.blockComment, Text.expand c⟩ := by
  rw [pushBlockComment, if_neg (ne_of_isBlank h rfl), if_neg (ne_of_isBlank h rfl), if_pos h]

/-- In a literal a blank is gathered, and a backslash in front of it has nothing left to
    escape. -/
theorem step_literal_of_isBlank (quote : Quote) (escaped : Bool) (pending : List Char) {c : Char}
    (h : Text.isBlank c = true) :
    step ⟨.literal quote escaped, pending⟩ c
      = ([], ⟨.literal quote false, (Text.expand c).reverse ++ pending⟩) := by
  have hmark : c ≠ quote.mark := by cases quote <;> exact ne_of_isBlank h rfl
  have hslash : c ≠ '\\' := ne_of_isBlank h rfl
  rw [step_literal, pushLiteral, if_neg (ne_of_isBlank h rfl), if_neg fun hc => hmark hc.1,
    if_neg fun hc => hslash hc.1]

/-- Anywhere else it ends what was gathered and is handed out behind it. -/
theorem step_of_isBlank {mode : Mode} (hmode : ∀ quote escaped, mode ≠ .literal quote escaped)
    (pending : List Char) {c : Char} (h : Text.isBlank c = true) :
    step ⟨mode, pending⟩ c = (flush ⟨mode, pending⟩ ++ [mode.blank c], ⟨mode.afterBlank, []⟩) := by
  have hslash : c ≠ '/' := ne_of_isBlank h rfl
  have hstar : c ≠ '*' := ne_of_isBlank h rfl
  -- No mode waits for a blank, so each of them gives up what it was waiting for.
  cases mode with
  | code => rw [step_code, pushCode_of_isBlank _ h]; rfl
  | slash => rw [step_slash, if_neg hstar, if_neg hslash, resume, pushCode_of_isBlank _ h]; rfl
  | delimiters =>
      rw [step_delimiters, if_neg (Bool.eq_false_iff.mp (isDelimiter_of_isBlank h)), resume,
        pushCode_of_isBlank _ h]
      rfl
  | literal quote escaped => exact absurd rfl (hmode quote escaped)
  | blockComment => rw [step_blockComment, pushBlockComment_of_isBlank _ h]; rfl
  | blockStar =>
      rw [step_blockStar, if_neg hslash, if_neg hstar, pushBlockComment_of_isBlank _ h]
      rfl
  | lineComment =>
      rw [step_lineComment, pushLineComment, if_neg (ne_of_isBlank h rfl), if_pos h]
      rfl

/-! ### Runs -/

/-- In a literal all blanks are gathered, tabs as what they are worth. -/
theorem run_blanks_literal (quote : Quote) (escaped : Bool) (pending : List Char) (c : Char)
    (blanks text : List Char) (h : ∀ d ∈ c :: blanks, Text.isBlank d = true) :
    run ⟨.literal quote escaped, pending⟩ (c :: blanks ++ text)
      = run ⟨.literal quote false, ((c :: blanks).flatMap Text.expand).reverse ++ pending⟩
          text := by
  -- Whether the first blank is escaped does not matter, and the others are not.
  induction blanks generalizing escaped pending c with
  | nil =>
      have hstep := step_literal_of_isBlank quote escaped pending (h c List.mem_cons_self)
      rw [List.cons_append, run_of_gather hstep, List.flatMap_singleton]
      rfl
  | cons d blanks ih =>
      have hstep := step_literal_of_isBlank quote escaped pending (h c List.mem_cons_self)
      have hworth : (c :: d :: blanks).flatMap Text.expand
          = Text.expand c ++ (d :: blanks).flatMap Text.expand := List.flatMap_cons
      rw [List.cons_append, run_of_gather hstep,
        ih false _ d fun e he => h e (List.mem_cons_of_mem c he), hworth, List.reverse_append,
        List.append_assoc]

/-- Anywhere else they are handed out one by one, and the scanner is where one
    blank alone would have left it. -/
theorem run_blanks {mode : Mode} (hmode : ∀ quote escaped, mode ≠ .literal quote escaped)
    (pending : List Char) (c : Char) (blanks text : List Char)
    (h : ∀ d ∈ c :: blanks, Text.isBlank d = true) :
    run ⟨mode, pending⟩ (c :: blanks ++ text)
      = flush ⟨mode, pending⟩ ++ ((c :: blanks).map mode.blank
          ++ run ⟨mode.afterBlank, []⟩ text) := by
  -- The first blank may change the mode, so the rest is a run from another one.
  induction blanks generalizing mode pending c with
  | nil =>
      rw [List.cons_append, run_cons, step_of_isBlank hmode pending (h c List.mem_cons_self),
        List.append_assoc]
      rfl
  | cons d blanks ih =>
      have hafter : ∀ quote escaped, mode.afterBlank ≠ .literal quote escaped := by
        intro quote escaped hliteral
        cases mode with
        | literal quote escaped => exact hmode quote escaped rfl
        | _ => exact Mode.noConfusion hliteral
      have hrest := ih hafter [] d fun e he => h e (List.mem_cons_of_mem c he)
      have hblank : mode.afterBlank.blank = mode.blank := by
        funext e
        rw [Mode.blank, Mode.blank, Mode.blankKind_afterBlank]
      rw [hblank, Mode.afterBlank_afterBlank] at hrest
      rw [List.cons_append, run_cons, step_of_isBlank hmode pending (h c List.mem_cons_self),
        hrest, List.append_assoc]
      rfl

/-- What becomes of blanks once they are condensed depends on the text they are
    worth, and not on how it was written. -/
theorem condensed_run_blanks (s : Scanner) (c d : Char) (blanks others : List Char)
    (h : ∀ e ∈ c :: blanks, Text.isBlank e = true) (h' : ∀ e ∈ d :: others, Text.isBlank e = true)
    (hworth : (c :: blanks).flatMap Text.expand = (d :: others).flatMap Text.expand)
    (text : List Char) :
    Fragment.condensed (s.run (c :: blanks ++ text))
      = Fragment.condensed (s.run (d :: others ++ text)) := by
  rcases s with ⟨mode, pending⟩
  by_cases hmode : ∀ quote escaped, mode ≠ .literal quote escaped
  · -- The blanks are one run of a kind that is joined.
    have hkind (e : Char) (es : List Char) :
        ∀ f ∈ (e :: es).map mode.blank, f.kind = mode.blankKind := by
      intro f hf
      rcases List.mem_map.mp hf with ⟨_, -, hblank⟩
      rw [← hblank, Mode.blank]
    have hcontent (e : Char) (es : List Char) :
        ((e :: es).map mode.blank).flatMap (·.content) = (e :: es).flatMap Text.expand := by
      rw [List.flatMap_map]
      rfl
    rw [run_blanks hmode pending c blanks text h, run_blanks hmode pending d others text h',
      Fragment.condensed_append, Fragment.condensed_append, Fragment.condensed_append,
      Fragment.condensed_append, Fragment.foldr_attach_of_kind mode.mergeable_blankKind
        (hkind c blanks), Fragment.foldr_attach_of_kind mode.mergeable_blankKind (hkind d others),
      hcontent, hcontent, hworth]
  · rcases not_forall.mp hmode with ⟨quote, hquote⟩
    rcases not_forall.mp hquote with ⟨escaped, hliteral⟩
    rw [not_not.mp hliteral, run_blanks_literal quote escaped pending c blanks text h,
      run_blanks_literal quote escaped pending d others text h', hworth]

/-- Whether tabs are expanded before scanning or by the scanner does not show once
    the fragments are condensed. -/
theorem condensed_run_expand (s : Scanner) (text : List Char) :
    Fragment.condensed (s.run (text.flatMap Text.expand)) = Fragment.condensed (s.run text) := by
  induction text generalizing s with
  | nil => rfl
  | cons c text ih =>
      rw [List.flatMap_cons]
      by_cases hc : c = '\t'
      · -- The blanks of the tab are put back together first.
        have htab : Fragment.condensed (s.run (Text.tab ++ text.flatMap Text.expand))
            = Fragment.condensed (s.run (['\t'] ++ text.flatMap Text.expand)) :=
          condensed_run_blanks s ' ' '\t' [' ', ' ', ' '] [] (List.all_eq_true.mp rfl)
            (List.all_eq_true.mp rfl) rfl _
        rw [hc, show Text.expand '\t' = Text.tab from rfl, htab, List.singleton_append, run_cons,
          run_cons, Fragment.condensed_append, Fragment.condensed_append, ih]
      · rw [Text.expand_of_ne hc, List.singleton_append, run_cons, run_cons,
          Fragment.condensed_append, Fragment.condensed_append, ih]

end Scanner

namespace Text

/-- A carriage return is no part of the normal text. -/
theorem normalize_carriageReturn {front back : List Char}
    (h : front ≠ [] ∨ back.head? ≠ some '\uFEFF') :
    normalize (front ++ '\r' :: back) = normalize (front ++ back) := by
  -- Neither text has a mark in front that the other one has not.
  have hreturn := stripMark_append_cons (c := '\r') (by decide) front back
  rw [normalize, normalize, hreturn, stripMark_append h, List.filter_append,
    List.filter_append, List.filter_cons_of_neg (by decide)]

/-- In front of a byte order mark it keeps the mark from being one. What was dropped
    without it is a character of the text now. -/
theorem normalize_carriageReturn_mark (text : List Char) :
    normalize ('\r' :: '\uFEFF' :: text) = '\uFEFF' :: normalize ('\uFEFF' :: text) := by
  have hkept : stripMark ('\r' :: '\uFEFF' :: text) = '\r' :: '\uFEFF' :: text := by
    rw [stripMark, if_neg (by decide)]
  have hdropped : stripMark ('\uFEFF' :: text) = text := by
    rw [stripMark, if_pos rfl]
  rw [normalize, normalize, hkept, hdropped, List.filter_cons_of_neg (by decide),
    List.filter_cons_of_pos (by decide), List.flatMap_cons, expand_of_ne (by decide),
    List.singleton_append]

/-- So that is the one place where it matters. -/
theorem normalize_carriageReturn_iff (front back : List Char) :
    normalize (front ++ '\r' :: back) = normalize (front ++ back) ↔
      front ≠ [] ∨ back.head? ≠ some '\uFEFF' := by
  refine ⟨fun hsame => ?_, normalize_carriageReturn⟩
  by_contra hplace
  rcases not_or.mp hplace with ⟨hfront, hback⟩
  rcases List.head?_eq_some_iff.mp (not_not.mp hback) with ⟨text, htext⟩
  -- The text with the return is longer by the mark.
  rw [not_not.mp hfront, htext, List.nil_append, List.nil_append,
    normalize_carriageReturn_mark] at hsame
  exact List.cons_ne_self _ _ hsame

/-- A tab and the blanks it is worth are the same in normal text. Both keep a mark
    behind them from being dropped. -/
theorem normalize_tab (front back : List Char) :
    normalize (front ++ '\t' :: back) = normalize (front ++ (tab ++ back)) := by
  have htab := stripMark_append_cons (c := '\t') (by decide) front back
  have hblanks : stripMark (front ++ (tab ++ back)) = stripMark front ++ (tab ++ back) :=
    stripMark_append_cons (by decide) front _
  -- Neither a tab nor a blank is a carriage return, so both get past the filter.
  rw [normalize, normalize, htab, hblanks, List.filter_append, List.filter_append,
    List.flatMap_append, List.flatMap_append]
  rfl

end Text

namespace Settings

/-- Two texts have the same fragments, and boxes in the same places with the same
    colours. -/
def Agree (s : Settings) (a b : List Char) : Prop :=
  ∃ fs l, s.fragments a = .ok fs ∧ s.fragments b = .ok fs ∧ s.layout a = .ok l ∧ s.layout b = .ok l

/-- The fragments of a text are a function of its normal text. -/
theorem fragments_eq_normalize (s : Settings) (text : List Char) :
    s.fragments text
      = .ok ((Fragment.condensed (Scanner.run {} (Text.normalize text))).map
          s.vocabulary.resolve) := by
  rw [fragments_eq_map_resolve, Fragment.scan_eq_run, ← Scanner.condensed_run_expand]
  rfl

/-- Texts agree exactly if they have the same normal text. Put together again, the
    fragments are the normal text, so nothing about it is lost in them. -/
theorem agree_iff (s : Settings) (a b : List Char) :
    s.Agree a b ↔ Text.normalize a = Text.normalize b := by
  constructor
  · rintro ⟨fs, -, ha, hb, -, -⟩
    rw [← s.flatMap_content_fragments a ha, s.flatMap_content_fragments b hb]
  · intro h
    have ha := s.fragments_eq_normalize a
    have hb := s.fragments_eq_normalize b
    rw [← h] at hb
    exact ⟨_, _, ha, hb, s.layout_eq a ha, s.layout_eq b hb⟩

/-- The normal text decides. Texts with the same normal text have the same
    fragments and the same layout, whatever the measures, colours and words, and no
    other texts have. So a carriage return may stand anywhere, except in front of a
    byte order mark with which the text would begin without it. A tab may be written
    as blanks anywhere. -/
theorem normal_text_decides (s : Settings) :
    (∀ a b, s.Agree a b ↔ Text.normalize a = Text.normalize b) ∧
    (∀ front back, s.Agree (front ++ '\r' :: back) (front ++ back) ↔
      front ≠ [] ∨ back.head? ≠ some '\uFEFF') ∧
    ∀ front back, s.Agree (front ++ '\t' :: back) (front ++ (Text.tab ++ back)) := by
  refine ⟨s.agree_iff, fun front back => ?_, fun front back => ?_⟩
  · rw [agree_iff, Text.normalize_carriageReturn_iff]
  · exact (s.agree_iff _ _).mpr (Text.normalize_tab front back)

/-- A carriage return inside the opening of a comment, and a tab behind a star in
    it. -/
theorem normal_text_decides_comment :
    Text.normalize ['/', '\r', '*', '*', '\t', '/'] = ['/', '*', '*', ' ', ' ', ' ', ' ', '/'] ∧
      Agree {} ['/', '\r', '*', '*', '\t', '/'] ['/', '*', '*', ' ', ' ', ' ', ' ', '/'] :=
  ⟨rfl, ((normal_text_decides {}).1 _ _).mpr rfl⟩

/-- A carriage return does not go unnoticed everywhere. In front of a byte order mark
    it turns the word behind the mark into text that nothing is known about, because
    the mark is dropped in front of a text only. -/
theorem carriageReturn_before_mark :
    fragments {} ['\r', '\uFEFF', 'x'] = .ok [⟨.undefined, ['\uFEFF', 'x']⟩] ∧
      fragments {} ['\uFEFF', 'x'] = .ok [⟨.identifier, ['x']⟩] ∧
      ¬ ∀ front back, Agree {} (front ++ '\r' :: back) (front ++ back) := by
  have hreturn : fragments {} ['\r', '\uFEFF', 'x'] = .ok [⟨.undefined, ['\uFEFF', 'x']⟩] := rfl
  have hmark : fragments {} ['\uFEFF', 'x'] = .ok [⟨.identifier, ['x']⟩] := rfl
  refine ⟨hreturn, hmark, fun hanywhere => ?_⟩
  rcases hanywhere [] ['\uFEFF', 'x'] with ⟨fs, -, hfs, hfs', -, -⟩
  have hsame := (hreturn.symm.trans hfs).trans (hfs'.symm.trans hmark)
  exact absurd hsame (by decide)

end Settings

end SourceTexture
