import SourceTexture.Proofs.Fragment.Spelling

/-!
# The shape of text by kind

What the condensed fragments of a text look like, kind by kind.

Words are settled by spelling, and condensing leaves them alone. The other kinds
come from the scanner and are joined, so what is claimed of them has to survive
the joins, and joins are where trouble could start: a slash beside a run of
delimiters must not come to open a comment, and the pieces of a line comment must
come together to one fragment that still begins with two slashes and has nothing
behind it in its line.

The argument goes lexeme by lexeme from the end. The text behind a lexeme is
condensed already and has its shape, and the fragments of the lexeme are put in
front of it. The border between the two is not arbitrary. What follows a lexeme
begins where the lexeme ends, so the rule that ended the lexeme says something
about the first character of what it is joined with. That is why a slash is never
joined with a star: there the lexeme would have been a comment.

## Main definitions

* `Opens`: Two neighbouring characters open a comment.
* `IsPunctuation`: The texts of delimiters and slashes that open no comment.
* `Fragment.Shaped`: What the kind of a fragment says about its text and about
  what stands behind it.
* `ShapedAll`: Every fragment has its shape.
* `Fragment.Proper`: What holds of every fragment of a text.
* `Fragment.EndsLine`: Only a line break stands behind a line comment.

## Theorems

* `flatMap_content_pieces`: The fragments of a region hold its text.
* `Reads.head?_content_condensed`: Fragments begin where their text begins.
* `shapedAll_attach`: Putting a fragment in front keeps shapes.
* `Reads.shapedAll_condensed`: Condensed fragments have their shapes.
* `Settings.fragments_proper`: The kinds of the fragments of a text describe their
  contents.
-/

namespace SourceTexture

/-- A blank and a tab are worth blanks only. -/
theorem Text.eq_of_mem_expand_of_isBlank {c d : Char} (h : isBlank c = true)
    (hd : d ∈ expand c) : d = ' ' := by
  rcases eq_of_mem_expand hd with hblank | ⟨hdc, htab⟩
  · exact hblank
  · exact hdc.trans (((isBlank_iff c).mp h).resolve_right htab)

/-! ### Regions -/

/-- A piece holds its text with tabs expanded, also if it is a line break. -/
theorem content_piece (kind : Kind) (text : List Char) :
    (piece kind text).content = text.flatMap Text.expand := by
  rw [piece]
  split
  · next h =>
      rw [h]
      rfl
  · rfl

/-- The pieces of a region hold its text, whichever characters belong together. -/
theorem flatMap_content_pieces (kind : Kind) (together : Char → Char → Bool)
    (region : List Char) :
    (pieces kind together region).flatMap (·.content) = region.flatMap Text.expand := by
  have hparts : (region.splitBy together).flatMap (·.flatMap Text.expand)
      = (region.splitBy together).flatten.flatMap Text.expand := by
    rw [← List.flatMap_id, List.flatMap_assoc]
    rfl
  rw [pieces, List.flatMap_map]
  simp only [content_piece]
  rw [hparts, List.flatten_splitBy]

/-- A region without line breaks has its own kind throughout. -/
theorem kind_of_mem_pieces_of_not_mem (kind : Kind) (together : Char → Char → Bool)
    {region : List Char} (h : '\n' ∉ region) :
    ∀ f ∈ pieces kind together region, f.kind = kind := by
  intro f hf
  rcases List.mem_map.mp hf with ⟨text, htext, hpiece⟩
  -- A piece has no characters but those of its region.
  have hline : '\n' ∉ text := by
    intro hmem
    have hflatten := List.mem_flatten_of_mem htext hmem
    rw [List.flatten_splitBy] at hflatten
    exact h hflatten
  rw [← hpiece, piece_of_not_mem kind hline]

/-! ### The first character -/

/-- A line break begins no lexeme but its own. -/
theorem LexemeForm.eq_lineBreak {c : Char} {rest after : List Char} {fs : List Fragment}
    (h : LexemeForm c rest fs after) (hc : c = '\n') : fs = [.lineBreak] := by
  cases h with
  | lineBreak => rfl
  | blank hblank =>
      rw [hc] at hblank
      exact absurd hblank (by decide)
  | slash => exact absurd hc (by decide)
  | lineComment => exact absurd hc (by decide)
  | blockComment => exact absurd hc (by decide)
  | literal quote => cases quote <;> exact absurd hc (by decide)
  | delimiters hdelimiter =>
      rw [hc] at hdelimiter
      exact absurd hdelimiter (by decide)
  | word hplain => exact absurd hc ((isPlain_iff c).mp hplain).1

/-- The text of a lexeme begins with what its first character is worth. -/
theorem LexemeForm.head?_flatMap_content {c : Char} {rest after : List Char}
    {fs : List Fragment} (h : LexemeForm c rest fs after) :
    (fs.flatMap (·.content)).head? = (Text.expand c).head? := by
  cases h with
  | lineBreak => rfl
  | blank => rw [List.flatMap_singleton]
  | slash => rfl
  | lineComment => rw [flatMap_content_pieces]; rfl
  | blockComment => rw [flatMap_content_pieces]; rfl
  | literal quote => rw [literalLexeme, flatMap_content_pieces]; cases quote <;> rfl
  | delimiters hdelimiter =>
      rw [Text.expand_of_ne (Scanner.ne_tab_of_isDelimiter hdelimiter)]
      rfl
  | word hplain =>
      rw [Text.expand_of_ne ((isPlain_iff c).mp hplain).2.2.1]
      rfl

namespace Reads

variable {text : List Char} {fs : List Fragment}

/-- The first character of the fragments is that of the text, or the first blank
    of a tab. -/
theorem head?_content (h : Reads text fs) :
    ∀ c ∈ (fs.flatMap (·.content)).head?, c ∈ text.head? ∨ c = ' ' := by
  cases h with
  | nil => exact fun c hc => absurd hc (Option.not_mem_none c)
  | @cons d rest after fs gs hform =>
      intro c hc
      have hhead := hform.head?_flatMap_content
      rw [List.flatMap_append, List.head?_append, hhead, Text.expand] at hc
      -- The text begins with a tab, or its first character is there as it stands.
      split at hc
      · exact Or.inr (Option.mem_some_iff.mp hc).symm
      · exact Or.inl hc

/-- The first of the condensed fragments begins there. -/
theorem head?_content_condensed (h : Reads text fs) :
    ∀ g ∈ (Fragment.condensed fs).head?, ∀ c ∈ g.content.head?, c ∈ text.head? ∨ c = ' ' := by
  intro g hg c hc
  refine h.head?_content c ?_
  rcases List.head?_eq_some_iff.mp (Option.mem_def.mp hg) with ⟨gs, hcondensed⟩
  rw [← Fragment.flatMap_content_condensed, hcondensed, List.flatMap_cons, List.head?_append,
    Option.mem_def.mp hc]
  rfl

end Reads

/-! ### Punctuation -/

/-- Whether two neighbouring characters open a comment. -/
def Opens (a b : Char) : Prop :=
  a = '/' ∧ (b = '/' ∨ b = '*')

/-- Text of delimiters and slashes in which no comment is opened. -/
def IsPunctuation (content : List Char) : Prop :=
  (∀ c ∈ content, isDelimiter c = true ∨ c = '/') ∧ content.IsChain fun a b => ¬ Opens a b

theorem isPunctuation_slash : IsPunctuation ['/'] :=
  ⟨List.forall_mem_singleton.mpr (Or.inr rfl), List.isChain_singleton _⟩

/-- Nothing in a run of delimiters opens a comment, because a slash is no delimiter. -/
theorem isPunctuation_of_isDelimiter {run : List Char} (h : ∀ c ∈ run, isDelimiter c = true) :
    IsPunctuation run := by
  refine ⟨fun c hc => Or.inl (h c hc), (List.pairwise_of_forall_mem_list ?_).isChain⟩
  intro a ha b _ hopens
  have hslash : isDelimiter '/' = true := hopens.1 ▸ h a ha
  exact absurd hslash (by decide)

namespace IsPunctuation

/-- Two such texts make one, unless they open a comment at the border. -/
theorem append {run more : List Char} (hrun : IsPunctuation run) (hmore : IsPunctuation more)
    (hborder : ∀ a ∈ run.getLast?, ∀ b ∈ more.head?, ¬ Opens a b) :
    IsPunctuation (run ++ more) :=
  ⟨List.forall_mem_append.mpr ⟨hrun.1, hmore.1⟩,
    List.isChain_append.mpr ⟨hrun.2, hmore.2, hborder⟩⟩

/-- Two characters that open a comment stand nowhere in it. -/
theorem opens_nowhere {content : List Char} (h : IsPunctuation content) {a b : Char}
    (hopens : Opens a b) : ¬ [a, b] <:+: content := by
  rintro ⟨front, back, hsplit⟩
  rw [List.append_assoc] at hsplit
  exact List.isChain_iff_forall_rel_of_append_cons_cons.mp h.2 hsplit.symm hopens

end IsPunctuation

/-! ### Shapes -/

/-- What a kind that the scanner gives says about the text of a fragment, and about
    the fragments behind it. -/
def Fragment.Shaped (f : Fragment) (behind : List Fragment) : Prop :=
  match f.kind with
  | .space => ∀ c ∈ f.content, c = ' '
  | .delimiter => IsPunctuation f.content
  | .lineComment => ['/', '/'] <+: f.content ∧ ∀ g ∈ behind.head?, g.kind = .lineFeed
  | _ => True

/-- Every one of the fragments has its shape. -/
def ShapedAll : List Fragment → Prop
  | [] => True
  | f :: fs => f.Shaped fs ∧ ShapedAll fs

/-- A fragment put in front of condensed ones leaves every fragment its shape, if
    it has one by itself and joined with the first of them. -/
theorem shapedAll_attach {f : Fragment} {gs : List Fragment} (hgs : ShapedAll gs)
    (hf : f.Shaped gs)
    (hjoin : ∀ g behind, gs = g :: behind → f.kind = g.kind → g.Shaped behind →
      Fragment.Shaped ⟨f.kind, f.content ++ g.content⟩ behind) :
    ShapedAll (f.attach gs) := by
  by_cases hne : f.content = []
  · rw [Fragment.attach_of_empty hne]
    exact hgs
  · cases gs with
    | nil =>
        rw [Fragment.attach_nil hne]
        exact ⟨hf, hgs⟩
    | cons g gs =>
        by_cases hjoins : f.kind = g.kind ∧ f.kind.mergeable
        · -- The join has behind it what its second part had behind it.
          rw [Fragment.attach_of_joins gs hne hjoins]
          exact ⟨hjoin g gs rfl hjoins.1 hgs.1, hgs.2⟩
        · rw [Fragment.attach_of_apart gs hne hjoins]
          exact ⟨hf, hgs⟩

/-- Kinds whose text may be anything can be put in front of anything. -/
theorem shapedAll_foldr_attach {fs gs : List Fragment} (hgs : ShapedAll gs)
    (hfs : ∀ f ∈ fs, ∀ content behind, Fragment.Shaped ⟨f.kind, content⟩ behind) :
    ShapedAll (fs.foldr Fragment.attach gs) := by
  induction fs with
  | nil => exact hgs
  | cons f fs ih =>
      have hf := hfs f List.mem_cons_self
      have hrest := ih fun g hg => hfs g (List.mem_cons_of_mem f hg)
      exact shapedAll_attach hrest (hf f.content _) fun g behind _ _ _ => hf _ behind

theorem Quote.shaped (quote : Quote) (content : List Char) (behind : List Fragment) :
    Fragment.Shaped ⟨quote.kind, content⟩ behind := by
  cases quote <;> exact trivial

/-- Pieces of a kind that may hold anything leave the others their shape. -/
theorem shapedAll_foldr_attach_pieces (kind : Kind)
    (hkind : ∀ content behind, Fragment.Shaped ⟨kind, content⟩ behind)
    (together : Char → Char → Bool) (region : List Char) {gs : List Fragment}
    (hgs : ShapedAll gs) :
    ShapedAll ((pieces kind together region).foldr Fragment.attach gs) := by
  refine shapedAll_foldr_attach hgs fun f hf content behind => ?_
  rcases kind_of_mem_pieces kind together region f hf with h | h
  · rw [h]
    exact hkind content behind
  · rw [h]
    exact trivial

namespace Reads

variable {text : List Char} {fs : List Fragment}

/-- Where a text begins with a line break, so does what it is condensed to. -/
theorem kind_head?_condensed (h : Reads text fs) (hline : ∀ c ∈ text.head?, c = '\n') :
    ∀ g ∈ (Fragment.condensed fs).head?, g.kind = .lineFeed := by
  cases h with
  | nil => exact fun g hg => absurd hg (Option.not_mem_none g)
  | @cons c rest after fs gs hform =>
      rw [hform.eq_lineBreak (hline c rfl), List.singleton_append]
      exact Fragment.kind_of_mem_head?_condensed (List.cons_ne_nil _ _) gs

/-- A blank keeps the shape of the blanks behind it. -/
theorem shapedAll_attach_blank (h : ShapedAll (Fragment.condensed fs)) {blanks : List Char}
    (hblanks : ∀ c ∈ blanks, c = ' ') :
    ShapedAll (Fragment.attach ⟨.space, blanks⟩ (Fragment.condensed fs)) := by
  refine shapedAll_attach h hblanks fun g behind _ hkind hg => ?_
  rw [Fragment.Shaped, ← hkind] at hg
  exact List.forall_mem_append.mpr ⟨hblanks, hg⟩

/-- Punctuation keeps the shape of the punctuation behind it, unless the two open
    a comment at the border. -/
theorem shapedAll_attach_delimiter (hread : Reads text fs)
    (h : ShapedAll (Fragment.condensed fs)) {run : List Char} (hrun : IsPunctuation run)
    (hborder : ∀ a ∈ run.getLast?, ∀ b, b ∈ text.head? ∨ b = ' ' → ¬ Opens a b) :
    ShapedAll (Fragment.attach ⟨.delimiter, run⟩ (Fragment.condensed fs)) := by
  refine shapedAll_attach h hrun fun g behind hgs hkind hg => ?_
  have hhead : g ∈ (Fragment.condensed fs).head? := by rw [hgs]; rfl
  rw [Fragment.Shaped, ← hkind] at hg
  -- Both runs are fine by themselves, so only the border can open a comment.
  exact hrun.append hg fun a ha b hb =>
    hborder a ha b (hread.head?_content_condensed g hhead b hb)

/-- A line comment is one fragment, and takes its line. -/
theorem shapedAll_foldr_attach_lineComment (hread : Reads text fs)
    (h : ShapedAll (Fragment.condensed fs)) {line : List Char} (hline : '\n' ∉ line)
    (hnext : ∀ c ∈ text.head?, c = '\n') :
    ShapedAll ((pieces .lineComment togetherInComment ('/' :: '/' :: line)).foldr
      Fragment.attach (Fragment.condensed fs)) := by
  have hregion : '\n' ∉ '/' :: '/' :: line :=
    List.not_mem_cons_of_ne_of_not_mem (by decide)
      (List.not_mem_cons_of_ne_of_not_mem (by decide) hline)
  have hhead := hread.kind_head?_condensed hnext
  rw [Fragment.foldr_attach_of_kind rfl
    (kind_of_mem_pieces_of_not_mem .lineComment togetherInComment hregion),
    flatMap_content_pieces]
  refine shapedAll_attach h ⟨⟨_, rfl⟩, hhead⟩ fun g behind hgs hkind _ => ?_
  -- The line break behind the comment is joined with nothing.
  have hg : g.kind = .lineFeed := hhead g (by rw [hgs]; rfl)
  exact absurd (hkind.trans hg) Kind.noConfusion

/-- Condensed lexemes have their shapes. Two of these say something about what stands
    behind, that of delimiters and that of line comments, and there the form of the
    lexeme has the answer. -/
theorem shapedAll_condensed (h : Reads text fs) : ShapedAll (Fragment.condensed fs) := by
  induction h with
  | nil => exact trivial
  | @cons c rest after fs gs hform hafter ih =>
      rw [Fragment.condensed_append]
      cases hform with
      | lineBreak => exact shapedAll_attach ih trivial fun _ _ _ _ _ => trivial
      | blank hblank =>
          exact shapedAll_attach_blank ih fun d hd => Text.eq_of_mem_expand_of_isBlank hblank hd
      | slash hnext =>
          -- Behind the slash stands none of the two that would open a comment.
          refine hafter.shapedAll_attach_delimiter ih isPunctuation_slash fun a _ b hb hopens => ?_
          rcases hb with hb | hb
          · exact hopens.2.elim (hnext b hb).1 (hnext b hb).2
          · rw [hb] at hopens
            exact absurd hopens.2 (by decide)
      | lineComment rest =>
          refine hafter.shapedAll_foldr_attach_lineComment ih (fun hmem => ?_) fun d hd => ?_
          · exact absurd (List.mem_takeWhile_imp hmem) (by decide)
          · have hnot := List.head?_dropWhile_not (fun d => decide (d ≠ '\n')) rest
            rw [Option.mem_def.mp hd] at hnot
            exact not_not.mp (of_decide_eq_false hnot)
      | blockComment => exact shapedAll_foldr_attach_pieces .blockComment (fun _ _ => trivial) _ _ ih
      | literal quote => exact shapedAll_foldr_attach_pieces quote.kind quote.shaped _ _ ih
      | delimiters hdelimiter =>
          -- The run ends in a delimiter, so nothing behind it makes that open a comment.
          have hrun : ∀ d ∈ c :: rest.takeWhile isDelimiter, isDelimiter d = true :=
            List.forall_mem_cons.mpr ⟨hdelimiter, fun d hd => List.mem_takeWhile_imp hd⟩
          refine hafter.shapedAll_attach_delimiter ih (isPunctuation_of_isDelimiter hrun)
            fun a ha b _ hopens => ?_
          have hslash : isDelimiter '/' = true := hopens.1 ▸ hrun a (List.mem_of_mem_getLast? ha)
          exact absurd hslash (by decide)
      | word => exact shapedAll_attach ih trivial fun _ _ _ _ _ => trivial

end Reads

/-! ### The fragments of a text -/

/-- A line comment is the last of its line. -/
def Fragment.EndsLine (f g : Fragment) : Prop :=
  f.kind = .lineComment → g.kind = .lineFeed

/-- Where all fragments have their shape, the neighbour of a line comment is a line
    break. -/
theorem ShapedAll.isChain_endsLine {fs : List Fragment} (h : ShapedAll fs) :
    fs.IsChain Fragment.EndsLine := by
  induction fs with
  | nil => exact List.isChain_nil
  | cons f fs ih =>
      refine List.isChain_cons.mpr ⟨fun g hg hkind => ?_, ih h.2⟩
      have hf := h.1
      rw [Fragment.Shaped, hkind] at hf
      exact hf.2 g hg

theorem ShapedAll.exists_shaped {fs : List Fragment} (h : ShapedAll fs) :
    ∀ f ∈ fs, ∃ behind, f.Shaped behind := by
  induction fs with
  | nil => exact fun f hf => absurd hf List.not_mem_nil
  | cons f fs ih => exact List.forall_mem_cons.mpr ⟨⟨fs, h.1⟩, ih h.2⟩

namespace Text

/-- No tab is left in normal text, as the blanks of a tab are none. -/
theorem tab_not_mem_normalize (text : List Char) : '\t' ∉ normalize text := by
  intro hmem
  rcases List.mem_flatMap.mp hmem with ⟨c, -, hc⟩
  rcases eq_of_mem_expand hc with hblank | ⟨htab, hne⟩
  · exact absurd hblank (by decide)
  · exact hne htab.symm

/-- No carriage return is left either. They are gone before tabs are expanded, and that
    makes no new ones. -/
theorem carriageReturn_not_mem_normalize (text : List Char) : '\r' ∉ normalize text := by
  intro hmem
  rcases List.mem_flatMap.mp hmem with ⟨c, hfilter, hc⟩
  rcases eq_of_mem_expand hc with hblank | ⟨hreturn, -⟩
  · exact absurd hblank (by decide)
  · rw [← hreturn] at hfilter
    exact of_decide_eq_true (List.mem_filter.mp hfilter).2 rfl

end Text

/-- What holds of every fragment of a text: it is not empty, holds no tab and no
    carriage return, and no line break unless it is one; its kind describes its
    text; and if the kind depends on spelling, nothing in the text would end a
    word. -/
structure Fragment.Proper (v : Vocabulary) (f : Fragment) : Prop where
  /-- There is some text. -/
  content_ne_nil : f.content ≠ []
  /-- Tabs are expanded. -/
  tab_not_mem : '\t' ∉ f.content
  /-- Carriage returns are dropped. -/
  carriageReturn_not_mem : '\r' ∉ f.content
  /-- Line breaks stand alone. -/
  lineBreak : '\n' ∈ f.content → f.kind = .lineFeed
  /-- The kind describes the text. -/
  spelled : f.Spelled v
  /-- Words hold no blanks, slashes, quotes and delimiters. -/
  plain : f.kind.isSettled = false → ∀ c ∈ f.content,
    c ≠ ' ' ∧ c ≠ '/' ∧ c ≠ '"' ∧ c ≠ '\'' ∧ isDelimiter c = false

namespace Fragment

/-- Raw fragments are condensed to fragments whose kinds, as far as the scanner
    settles them, describe their text. -/
theorem spelled_of_shaped (v : Vocabulary) {f : Fragment} {behind : List Fragment}
    (hsettled : f.kind.isSettled = true) (hlines : f.KeepsLines) (h : f.Shaped behind) :
    f.Spelled v := by
  rcases f with ⟨kind, content⟩
  -- The last case is that of the kinds that a scanner does not settle.
  cases kind with
  | space => exact h
  | delimiter => exact ⟨h.1, h.opens_nowhere ⟨rfl, Or.inl rfl⟩, h.opens_nowhere ⟨rfl, Or.inr rfl⟩⟩
  | lineComment => exact h.1
  | lineFeed => exact hlines.content_eq rfl
  | blockComment | stringLiteral | characterLiteral => exact trivial
  | _ => exact Bool.noConfusion hsettled

/-- Once its kind is settled, a condensed raw fragment is spelled as its kind
    says. -/
theorem spelled_resolve (v : Vocabulary) {f : Fragment} {behind : List Fragment} (hraw : f.Raw)
    (hlines : (v.resolve f).KeepsLines) (h : f.Shaped behind) : (v.resolve f).Spelled v := by
  cases hsettled : f.kind.isSettled with
  | true =>
      rw [v.resolve_of_isSettled hsettled] at hlines ⊢
      exact spelled_of_shaped v hsettled hlines h
  | false =>
      -- What the scanner left open is undefined, and the vocabulary goes by its spelling.
      have hkind := hraw.kind_eq_undefined hsettled
      rw [Vocabulary.resolve, if_pos hkind]
      exact v.spelled_kindOf hraw.content_ne_nil (hraw.plain hkind)

/-- What is left to spelling holds nothing that would have ended the word. -/
theorem plain_resolve (v : Vocabulary) {f : Fragment} (hraw : f.Raw)
    (hsettled : (v.resolve f).kind.isSettled = false) :
    ∀ c ∈ (v.resolve f).content,
      c ≠ ' ' ∧ c ≠ '/' ∧ c ≠ '"' ∧ c ≠ '\'' ∧ isDelimiter c = false := by
  rw [v.isSettled_kind_resolve hraw] at hsettled
  rw [Vocabulary.content_resolve]
  intro c hc
  have hplain := hraw.plain (hraw.kind_eq_undefined hsettled) c hc
  rcases (isPlain_iff c).mp hplain with ⟨-, hspace, -, hslash, hdouble, hsingle, hdelimiter⟩
  exact ⟨hspace, hslash, hdouble, hsingle, hdelimiter⟩

/-- Settling kinds makes no line comment, and no line break either. -/
theorem EndsLine.resolve (v : Vocabulary) {f g : Fragment} (h : f.EndsLine g) :
    (v.resolve f).EndsLine (v.resolve g) := by
  intro hkind
  refine (v.kind_resolve_eq_lineFeed g).mpr (h ?_)
  rw [Vocabulary.resolve] at hkind
  -- Words do not become line comments, so the fragment was one before.
  split_ifs at hkind with hundefined
  · rw [Vocabulary.kindOf, Vocabulary.kindOfWord] at hkind
    split_ifs at hkind
  · exact hkind

end Fragment

namespace Settings

/-- The kinds of the fragments of a text describe their contents. Every text has
    fragments, each of them is proper, and a line comment is the last fragment or
    has a line break behind it. -/
theorem fragments_proper (s : Settings) (text : List Char) :
    ∃ fs, s.fragments text = .ok fs ∧ (∀ f ∈ fs, f.Proper s.vocabulary) ∧
      fs.IsChain Fragment.EndsLine := by
  have hok := s.fragments_eq_map_resolve text
  have hraw := Fragment.raw_of_mem_condensed (Fragment.raw_of_mem_scan text)
  have hshaped := (Fragment.reads_scan text).shapedAll_condensed
  refine ⟨_, hok, fun f hf => ?_, ?_⟩
  · -- What a normal text does not hold, none of its fragments does.
    have hkeeps := s.keepsLines_of_mem_fragments text hok f hf
    have hnormal : ∀ c ∈ f.content, c ∈ Text.normalize text := by
      intro c hc
      rw [← s.flatMap_content_fragments text hok]
      exact List.mem_flatMap_of_mem hf hc
    rcases List.mem_map.mp hf with ⟨g, hg, hgf⟩
    rcases hshaped.exists_shaped g hg with ⟨behind, hbehind⟩
    rw [← hgf] at hkeeps hnormal ⊢
    exact {
      content_ne_nil := by
        rw [Vocabulary.content_resolve]
        exact (hraw g hg).content_ne_nil
      tab_not_mem := fun hmem => Text.tab_not_mem_normalize text (hnormal _ hmem)
      carriageReturn_not_mem := fun hmem =>
        Text.carriageReturn_not_mem_normalize text (hnormal _ hmem)
      lineBreak := fun hmem => Decidable.not_not.mp fun hkind => hkeeps.not_mem hkind hmem
      spelled := Fragment.spelled_resolve s.vocabulary (hraw g hg) hkeeps hbehind
      plain := Fragment.plain_resolve s.vocabulary (hraw g hg) }
  · rw [List.isChain_map]
    exact hshaped.isChain_endsLine.imp fun f g h => h.resolve s.vocabulary

end Settings

end SourceTexture
