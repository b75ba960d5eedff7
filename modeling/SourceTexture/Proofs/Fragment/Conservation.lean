import SourceTexture.Proofs.Fragment.Condensing
import SourceTexture.Proofs.Fragment.ScannerRun
import Mathlib.Tactic.SplitIfs

/-!
# Conservation of text

Nothing is lost, doubled or moved on the way from a text to its fragments, and no
line break hides inside one.

A scanner keeps two things: what it has handed out and what it holds back.
Conservation is about both together, so it is stated about the pair that a step
returns: what was held back before, followed by the text the step takes, is what
the step hands out followed by what it holds back. `Scanner.Takes` says that,
and two further things that are settled by the same case split, and every step
is built from a handful of moves that have it. A whole text is then taken by
putting steps together, which `Scanner.Takes.trans` does.

The later stages have less to prove. Settling a kind does not touch the text, and
condensing only moves the borders between fragments.

## Main definitions

* `Fragment.KeepsLines`: A fragment is one line break, or holds none.
* `Scanner.Takes`: What a scanner has to do with a piece of text.

## Theorems

* `Scanner.step_takes`: Every step takes its character.
* `Scanner.feed_takes`: Feeding takes the whole text.
* `Fragment.flatMap_content_scan`: Scanning keeps the normal text.
* `Fragment.keepsLines_of_mem_scan`: Raw fragments keep lines apart.
* `Settings.keepsLines_of_mem_fragments`: So do the fragments of a text.
* `Settings.content_conserved`: No text is lost, at any point of the way.
-/

namespace SourceTexture

/-- A line break is a fragment of its own, and no other fragment holds one. -/
def Fragment.KeepsLines (f : Fragment) : Prop :=
  if f.kind = .lineFeed then f.content = ['\n'] else '\n' ∉ f.content

theorem Fragment.KeepsLines.content_eq {f : Fragment} (h : f.KeepsLines)
    (hkind : f.kind = .lineFeed) : f.content = ['\n'] := by
  rwa [KeepsLines, if_pos hkind] at h

theorem Fragment.KeepsLines.not_mem {f : Fragment} (h : f.KeepsLines)
    (hkind : f.kind ≠ .lineFeed) : '\n' ∉ f.content := by
  rwa [KeepsLines, if_neg hkind] at h

namespace Scanner

/-- What has to become of a piece of text when some text is held back before it,
    latest character first, judged by what is handed out and what scanner is
    left. -/
structure Takes (held text : List Char) (result : List Fragment × Scanner) : Prop where
  /-- What was held back and what is taken are handed out or held back. -/
  conserves : result.1.flatMap (·.content) ++ result.2.pending.reverse = held.reverse ++ text
  /-- Nothing empty is handed out. -/
  nonempty : ∀ f ∈ result.1, f.content ≠ []
  /-- Line breaks are handed out alone, and never held back. -/
  lines : '\n' ∉ held → '\n' ∉ result.2.pending ∧ ∀ f ∈ result.1, f.KeepsLines

theorem flatMap_content_flush (s : Scanner) :
    s.flush.flatMap (·.content) = s.pending.reverse := by
  cases h : s.pending with
  | nil => simp only [flush, h, List.flatMap_nil, List.reverse_nil]
  | cons c cs => simp only [flush, h, List.flatMap_cons, List.flatMap_nil, List.append_nil]

/-- Nothing empty is handed out, because a scanner that holds nothing hands out
    nothing. -/
theorem content_ne_nil_of_mem_flush (s : Scanner) : ∀ f ∈ s.flush, f.content ≠ [] := by
  intro f hf
  cases h : s.pending with
  | nil =>
      simp only [flush, h] at hf
      exact absurd hf List.not_mem_nil
  | cons c cs =>
      simp only [flush, h] at hf
      rw [List.mem_singleton.mp hf]
      exact List.reverse_ne_nil_iff.mpr (List.cons_ne_nil c cs)

theorem kind_ne_lineFeed (mode : Mode) : mode.kind ≠ .lineFeed := by
  cases mode with
  | literal quote escaped => cases quote <;> exact Kind.noConfusion
  | _ => exact Kind.noConfusion

/-- What was held without a line break is handed out as a fragment that is none. -/
theorem keepsLines_of_mem_flush (s : Scanner) (hs : '\n' ∉ s.pending) :
    ∀ f ∈ s.flush, f.KeepsLines := by
  intro f hf
  cases h : s.pending with
  | nil =>
      simp only [flush, h] at hf
      exact absurd hf List.not_mem_nil
  | cons c cs =>
      simp only [flush, h] at hf
      rw [List.mem_singleton.mp hf, Fragment.KeepsLines, if_neg (kind_ne_lineFeed s.mode)]
      rw [h] at hs
      exact fun hmem => hs (List.mem_reverse.mp hmem)

/-! ### The moves steps are made of -/

/-- Adding text to what is held back, whatever the mode becomes. -/
theorem takes_gather (s : Scanner) (mode : Mode) {text : List Char} (h : '\n' ∉ text) :
    Takes s.pending text ([], ⟨mode, text.reverse ++ s.pending⟩) := by
  refine ⟨?_, fun f hf => absurd hf List.not_mem_nil, fun hs => ⟨?_, fun f hf =>
    absurd hf List.not_mem_nil⟩⟩
  · rw [List.flatMap_nil, List.nil_append, List.reverse_append, List.reverse_reverse]
  · exact List.not_mem_append (fun hmem => h (List.mem_reverse.mp hmem)) hs

/-- Handing out what is held back, and holding back the new text instead. -/
theorem takes_flush (s : Scanner) (mode : Mode) {text : List Char} (h : '\n' ∉ text) :
    Takes s.pending text (s.flush, ⟨mode, text.reverse⟩) := by
  refine ⟨?_, content_ne_nil_of_mem_flush s, fun hs => ⟨fun hmem => ?_,
    keepsLines_of_mem_flush s hs⟩⟩
  · rw [flatMap_content_flush, List.reverse_reverse]
  · exact h (List.mem_reverse.mp hmem)

/-- Handing out what is held back and the new text as a fragment of its own. -/
theorem takes_cut (s : Scanner) (mode : Mode) (f : Fragment) (hne : f.content ≠ [])
    (hlines : f.KeepsLines) : Takes s.pending f.content (s.flush ++ [f], ⟨mode, []⟩) := by
  refine ⟨?_, fun g hg => ?_, fun hs => ⟨List.not_mem_nil, fun g hg => ?_⟩⟩
  · rw [List.flatMap_append, flatMap_content_flush, List.flatMap_singleton, List.reverse_nil,
      List.append_nil]
  · -- Two things are handed out: what was held, and the new fragment behind it.
    rcases List.mem_append.mp hg with hg | hg
    · exact content_ne_nil_of_mem_flush s g hg
    · rw [List.mem_singleton.mp hg]
      exact hne
  · rcases List.mem_append.mp hg with hg | hg
    · exact keepsLines_of_mem_flush s hs g hg
    · rw [List.mem_singleton.mp hg]
      exact hlines

/-- Adding a character to what is held back, and handing all of it out. -/
theorem takes_close (s : Scanner) (mode : Mode) {c : Char} (h : '\n' ≠ c) :
    Takes s.pending [c] (flush ⟨mode, c :: s.pending⟩, {}) := by
  have hkeeps (hs : '\n' ∉ s.pending) : ∀ f ∈ flush ⟨mode, c :: s.pending⟩, f.KeepsLines :=
    keepsLines_of_mem_flush ⟨mode, c :: s.pending⟩ (List.not_mem_cons_of_ne_of_not_mem h hs)
  refine ⟨?_, content_ne_nil_of_mem_flush ⟨mode, c :: s.pending⟩,
    fun hs => ⟨List.not_mem_nil, hkeeps hs⟩⟩
  rw [flatMap_content_flush, List.reverse_nil, List.append_nil, List.reverse_cons]

/-- One piece of text taken after the other. -/
theorem Takes.trans {held front back : List Char} {first second : List Fragment × Scanner}
    (hfirst : Takes held front first) (hsecond : Takes first.2.pending back second) :
    Takes held (front ++ back) (first.1 ++ second.1, second.2) := by
  refine ⟨?_, fun f hf => ?_, fun hs => ?_⟩
  · -- What the first leaves pending is what the second finds held back.
    rw [List.flatMap_append, List.append_assoc, hsecond.conserves, ← List.append_assoc,
      hfirst.conserves, List.append_assoc]
  · rcases List.mem_append.mp hf with hf | hf
    · exact hfirst.nonempty f hf
    · exact hsecond.nonempty f hf
  · rcases hfirst.lines hs with ⟨hpending, hkeeps⟩
    rcases hsecond.lines hpending with ⟨hlast, hkeeps'⟩
    refine ⟨hlast, fun f hf => ?_⟩
    rcases List.mem_append.mp hf with hf | hf
    · exact hkeeps f hf
    · exact hkeeps' f hf

/-! ### Steps -/

theorem keepsLines_lineBreak : Fragment.lineBreak.KeepsLines := rfl

/-- Expanding a character makes no line break. -/
theorem not_mem_expand {c : Char} (h : c ≠ '\n') : '\n' ∉ Text.expand c := by
  intro hmem
  rcases Text.eq_of_mem_expand hmem with hblank | ⟨hc, -⟩
  · exact absurd hblank (by decide)
  · exact h hc.symm

theorem ne_tab_of_not_isBlank {c : Char} (h : ¬ Text.isBlank c = true) : c ≠ '\t' :=
  fun hc => h (by rw [hc]; rfl)

theorem takes_blank (s : Scanner) (mode : Mode) (kind : Kind) {c : Char} (h : c ≠ '\n')
    (hkind : kind ≠ .lineFeed) :
    Takes s.pending (Text.expand c) (s.flush ++ [⟨kind, Text.expand c⟩], ⟨mode, []⟩) := by
  refine takes_cut s mode ⟨kind, Text.expand c⟩ (Text.expand_ne_nil c) ?_
  rw [Fragment.KeepsLines, if_neg hkind]
  exact not_mem_expand h

/-- A character gathered in a mode, tab or not. -/
theorem takes_character (s : Scanner) (mode : Mode) {c : Char} (h : c ≠ '\n') (htab : c ≠ '\t') :
    Takes s.pending (Text.expand c) ([], ⟨mode, c :: s.pending⟩) := by
  have hgather := takes_gather s mode (not_mem_expand h)
  rw [Text.expand_of_ne htab] at hgather ⊢
  exact hgather

theorem takes_lineBreak (s : Scanner) (mode : Mode) :
    Takes s.pending (Text.expand '\n') (s.flush ++ [.lineBreak], ⟨mode, []⟩) :=
  takes_cut s mode .lineBreak (List.cons_ne_nil _ _) keepsLines_lineBreak

theorem ne_tab_of_isDelimiter {c : Char} (h : isDelimiter c = true) : c ≠ '\t' :=
  fun hc => absurd h (by rw [hc]; decide)

/-- A character that opens a mode, and hands out what was held back before it. -/
theorem takes_enter (s : Scanner) (mode : Mode) {c : Char} (h : c ≠ '\n') (htab : c ≠ '\t') :
    Takes s.pending (Text.expand c) (s.enter mode c) := by
  rw [Text.expand_of_ne htab]
  exact takes_flush s mode fun hmem => h (List.mem_singleton.mp hmem).symm

/-- In code a character is held, handed out, or held after what was there was handed
    out. No case loses it. -/
theorem pushCode_takes (s : Scanner) (c : Char) :
    Takes s.pending (Text.expand c) (s.pushCode c) := by
  rw [pushCode]
  -- One case for each class of characters, in the order of the definition.
  split_ifs with hfeed hslash hdouble hsingle hdelimiter hblank
  · rw [hfeed]
    exact takes_lineBreak s s.mode
  · exact takes_enter s .slash hfeed (by rw [hslash]; decide)
  · exact takes_enter s (.literal .double false) hfeed (by rw [hdouble]; decide)
  · exact takes_enter s (.literal .single false) hfeed (by rw [hsingle]; decide)
  · exact takes_enter s .delimiters hfeed (ne_tab_of_isDelimiter hdelimiter)
  · exact takes_blank s s.mode .space hfeed Kind.noConfusion
  · exact takes_character s s.mode hfeed (ne_tab_of_not_isBlank hblank)

theorem resume_takes (s : Scanner) (c : Char) : Takes s.pending (Text.expand c) (s.resume c) :=
  Takes.trans (takes_flush s .code List.not_mem_nil) (pushCode_takes {} c)

/-- In a block comment blanks and line breaks are handed out at once, and all else is
    held. -/
theorem pushBlockComment_takes (s : Scanner) (c : Char) :
    Takes s.pending (Text.expand c) (s.pushBlockComment c) := by
  rw [pushBlockComment]
  split_ifs with hfeed hstar hblank
  · rw [hfeed]
    exact takes_lineBreak s s.mode
  · rw [hstar]
    exact takes_character s .blockStar (by decide) (by decide)
  · exact takes_blank s s.mode .blockComment hfeed Kind.noConfusion
  · exact takes_character s s.mode hfeed (ne_tab_of_not_isBlank hblank)

/-- In a line comment it is the same, but a line break leads back to code. -/
theorem pushLineComment_takes (s : Scanner) (c : Char) :
    Takes s.pending (Text.expand c) (s.pushLineComment c) := by
  rw [pushLineComment]
  split_ifs with hfeed hblank
  · rw [hfeed]
    exact takes_lineBreak s .code
  · exact takes_blank s s.mode .lineComment hfeed Kind.noConfusion
  · exact takes_character s s.mode hfeed (ne_tab_of_not_isBlank hblank)

/-- In a literal everything is held, blanks as what they are worth, until a mark or a
    line break comes. -/
theorem pushLiteral_takes (s : Scanner) (quote : Quote) (escaped : Bool) (c : Char) :
    Takes s.pending (Text.expand c) (s.pushLiteral quote escaped c) := by
  rw [pushLiteral]
  split_ifs with hfeed hmark hslash
  · rw [hfeed]
    exact takes_lineBreak s (.literal quote false)
  · -- A mark is no tab, so what closes the literal is held as it stands.
    have htab : c ≠ '\t' := fun hc => by
      rw [hc] at hmark
      cases quote <;> exact absurd hmark.1 (by decide)
    rw [Text.expand_of_ne htab]
    exact takes_close s s.mode (Ne.symm hfeed)
  · rw [hslash.1]
    exact takes_character s (.literal quote true) (by decide) (by decide)
  · exact takes_gather s (.literal quote false) (not_mem_expand hfeed)

/-- Every step takes its character, in whatever mode and with whatever text held
    back. -/
theorem step_takes (s : Scanner) (c : Char) : Takes s.pending (Text.expand c) (s.step c) := by
  rw [step]
  -- One case for each mode, in the order of the definition.
  split
  · exact pushCode_takes s c
  · split_ifs with hstar hslash
    · rw [hstar]
      exact takes_character s .blockComment (by decide) (by decide)
    · rw [hslash]
      exact takes_character s .lineComment (by decide) (by decide)
    · exact resume_takes s c
  · split_ifs with hdelimiter
    · have hfeed : c ≠ '\n' := fun hc => absurd hdelimiter (by rw [hc]; decide)
      exact takes_character s s.mode hfeed (ne_tab_of_isDelimiter hdelimiter)
    · exact resume_takes s c
  · exact pushLiteral_takes s _ _ c
  · exact pushBlockComment_takes s c
  · split_ifs with hslash hstar
    · rw [hslash]
      exact takes_close s s.mode (by decide)
    · rw [hstar]
      exact takes_character s s.mode (by decide) (by decide)
    · exact pushBlockComment_takes { s with mode := .blockComment } c
  · exact pushLineComment_takes s c

/-- Feeding takes the whole text, carriage returns left out and tabs expanded. -/
theorem feed_takes (s : Scanner) (text : List Char) :
    Takes s.pending ((text.filter (· ≠ '\r')).flatMap Text.expand) (s.feed text) := by
  induction text generalizing s with
  | nil => exact takes_gather s s.mode List.not_mem_nil
  | cons c text ih =>
      rw [feed_cons]
      -- A carriage return is left out on both sides, and any other character is one step.
      by_cases hc : c = '\r'
      · rw [hc, push_carriageReturn, List.filter_cons_of_neg (by decide)]
        exact ih s
      · rw [push_of_ne s hc, List.filter_cons_of_pos (by simpa only [decide_eq_true_eq] using hc),
          List.flatMap_cons]
        exact Takes.trans (step_takes s c) (ih (s.step c).2)

end Scanner

namespace Fragment

theorem flatMap_content_scan (text : List Char) :
    (scan text).flatMap (·.content) = Text.normalize text := by
  have htakes := Scanner.feed_takes {} (Text.stripMark text)
  rw [scan_eq_feed, List.flatMap_append, Scanner.flatMap_content_flush, htakes.conserves]
  rfl

/-- A scan hands out nothing empty, neither on the way nor at the end. -/
theorem content_ne_nil_of_mem_scan (text : List Char) : ∀ f ∈ scan text, f.content ≠ [] := by
  intro f hf
  rcases List.mem_append.mp hf with hf | hf
  · exact (Scanner.feed_takes {} (Text.stripMark text)).nonempty f hf
  · exact Scanner.content_ne_nil_of_mem_flush _ f hf

/-- Scanning never leaves a line break inside another fragment. -/
theorem keepsLines_of_mem_scan (text : List Char) : ∀ f ∈ scan text, f.KeepsLines := by
  intro f hf
  rcases (Scanner.feed_takes {} (Text.stripMark text)).lines List.not_mem_nil with
    ⟨hpending, hkeeps⟩
  -- A fragment comes while scanning or from what is held at the end.
  rcases List.mem_append.mp hf with hf | hf
  · exact hkeeps f hf
  · exact Scanner.keepsLines_of_mem_flush _ hpending f hf

end Fragment

namespace Vocabulary

@[simp] theorem content_resolve (v : Vocabulary) (f : Fragment) :
    (v.resolve f).content = f.content := by
  rw [resolve]
  split <;> rfl

theorem kindOf_ne_lineFeed (v : Vocabulary) (text : List Char) : v.kindOf text ≠ .lineFeed := by
  rw [kindOf, kindOfWord]
  split_ifs <;> exact Kind.noConfusion

/-- Settling kinds makes no line breaks and takes none away. -/
theorem kind_resolve_eq_lineFeed (v : Vocabulary) (f : Fragment) :
    (v.resolve f).kind = .lineFeed ↔ f.kind = .lineFeed := by
  rw [resolve]
  split_ifs with h
  · rw [h]
    -- A word is never resolved to a line break.
    exact ⟨fun hc => absurd hc (v.kindOf_ne_lineFeed f.content), Kind.noConfusion⟩
  · exact Iff.rfl

theorem keepsLines_resolve (v : Vocabulary) {f : Fragment} (h : f.KeepsLines) :
    (v.resolve f).KeepsLines := by
  rw [Fragment.KeepsLines, content_resolve]
  simp only [kind_resolve_eq_lineFeed]
  exact h

theorem flatMap_content_resolve (v : Vocabulary) (fs : List Fragment) :
    (fs.map v.resolve).flatMap (·.content) = fs.flatMap (·.content) := by
  rw [List.flatMap_map]
  simp only [content_resolve]

end Vocabulary

namespace Settings

/-- No fragment of a text has a line break inside, in whatever words its kinds were
    settled. -/
theorem keepsLines_of_mem_fragments (s : Settings) (text : List Char) {fs : List Fragment}
    (h : s.fragments text = .ok fs) : ∀ f ∈ fs, f.KeepsLines := by
  rw [fragments_eq, Except.ok.injEq] at h
  rw [← h]
  refine Fragment.forall_mem_condensed (fun f g hkind hmergeable hf hg => ?_) fun f hf _ => ?_
  · -- Line breaks are not joined, so neither side of a join holds one.
    have hline : f.kind ≠ .lineFeed := fun hc => by
      rw [hc] at hmergeable
      exact Bool.noConfusion hmergeable
    rw [Fragment.KeepsLines, if_neg hline]
    exact List.not_mem_append (hf.not_mem hline) (hg.not_mem (hkind ▸ hline))
  · rcases List.mem_map.mp hf with ⟨g, hg, hgf⟩
    rw [← hgf]
    exact s.vocabulary.keepsLines_resolve (Fragment.keepsLines_of_mem_scan text g hg)

/-- The fragments of a text, put together again, are its normal text. -/
theorem flatMap_content_fragments (s : Settings) (text : List Char) {fs : List Fragment}
    (h : s.fragments text = .ok fs) : fs.flatMap (·.content) = Text.normalize text := by
  rw [fragments_eq, Except.ok.injEq] at h
  rw [← h, Fragment.flatMap_content_condensed, Vocabulary.flatMap_content_resolve,
    Fragment.flatMap_content_scan]

theorem content_ne_nil_of_mem_fragments (s : Settings) (text : List Char) {fs : List Fragment}
    (h : s.fragments text = .ok fs) : ∀ f ∈ fs, f.content ≠ [] := by
  rw [fragments_eq, Except.ok.injEq] at h
  rw [← h]
  exact Fragment.content_ne_nil_of_mem_condensed _

/-- No text is lost, doubled or moved. However many characters have been pushed,
    what a fresh scanner has handed out and what it holds back are together the
    characters pushed, carriage returns dropped and tabs expanded, and nothing
    empty has been handed out. So every text has fragments, none of them empty,
    and put together again they are its normal text. -/
theorem content_conserved :
    (∀ pushed : List Char,
      (Scanner.feed {} pushed).1.flatMap (·.content) ++ (Scanner.feed {} pushed).2.pending.reverse
          = (pushed.filter (· ≠ '\r')).flatMap Text.expand ∧
        ∀ f ∈ (Scanner.feed {} pushed).1, f.content ≠ []) ∧
    ∀ (s : Settings) (text : List Char), ∃ fs, s.fragments text = .ok fs ∧
      (∀ f ∈ fs, f.content ≠ []) ∧ fs.flatMap (·.content) = Text.normalize text := by
  refine ⟨fun pushed => ?_, fun s text => ?_⟩
  · have htakes := Scanner.feed_takes {} pushed
    exact ⟨htakes.conserves, htakes.nonempty⟩
  · have hok := s.fragments_eq text
    exact ⟨_, hok, s.content_ne_nil_of_mem_fragments text hok,
      s.flatMap_content_fragments text hok⟩

end Settings

end SourceTexture
