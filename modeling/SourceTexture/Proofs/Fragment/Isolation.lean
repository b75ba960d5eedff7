import SourceTexture.Proofs.Fragment.Conservation
import SourceTexture.Proofs.Fragment.Neighbours

/-!
# Isolated words

Settling kinds and condensing do not disturb each other.

In general they do. Two identifiers side by side would be joined if their kinds
are settled first, and left apart if they are condensed first, because undefined
text is never joined. And a piece of undefined text that turned out to be blanks
would be joined with the blanks beside it. Neither can happen behind a scanner.
It puts no two words side by side, and what it leaves undefined is made of plain
characters, whose kind by spelling is never one that the scanner gives by itself.

So both stages may be done in either order, and condensing the raw fragments is
the more convenient one to think about: undefined text is never joined there, so
every word of a text is one raw fragment, and the text on either side of it is
condensed as if the word and the other side were not there.

## Main definitions

* `Fragment.Raw`: What raw fragments have in common.

## Theorems

* `Vocabulary.isSettled_kindOf`: No word has a kind that a scanner settles.
* `Vocabulary.respected_resolve`: Condensing respects the settling of kinds.
* `Vocabulary.condensed_map_resolve`: Kinds may be settled after condensing.
* `Settings.fragments_eq_map_resolve`: The fragments of a text are the condensed
  raw ones with their kinds settled.
* `Settings.exists_word_of_fragments_eq`: A word divides a text, raw or condensed.
* `Settings.words_isolated`: Words are raw fragments by themselves.
-/

namespace SourceTexture

/-- What raw fragments have in common, and keep when they are condensed: either
    the scanner has settled their kind, or they are words. -/
structure Fragment.Raw (f : Fragment) : Prop where
  /-- The fragment is not empty. -/
  content_ne_nil : f.content ≠ []
  /-- Its kind is settled or not yet looked at. -/
  kind : f.kind = .undefined ∨ f.kind.isSettled = true
  /-- If it is not, the text is a word. -/
  plain : f.kind = .undefined → ∀ c ∈ f.content, isPlain c = true

namespace Fragment

theorem raw_of_mem_scan (text : List Char) : ∀ f ∈ scan text, f.Raw := fun f hf =>
  ⟨content_ne_nil_of_mem_scan text f hf, isSettled_of_mem_scan text f hf,
    isPlain_of_mem_scan text f hf⟩

/-- Undefined fragments are not joined, so among raw ones only settled kinds are. -/
theorem Raw.isSettled_of_mergeable {f : Fragment} (h : f.Raw) (hmergeable : f.kind.mergeable) :
    f.kind.isSettled = true := by
  rcases h.kind with hkind | hsettled
  · rw [hkind] at hmergeable
    exact Bool.noConfusion hmergeable
  · exact hsettled

theorem Raw.kind_eq_undefined {f : Fragment} (h : f.Raw) (hsettled : f.kind.isSettled = false) :
    f.kind = .undefined := by
  rcases h.kind with hkind | hkind
  · exact hkind
  · exact absurd (hsettled.symm.trans hkind) Bool.false_ne_true

/-- A join of raw fragments is of a settled kind. -/
theorem Raw.join {f : Fragment} (h : f.Raw) (hmergeable : f.kind.mergeable) (more : List Char) :
    Raw ⟨f.kind, f.content ++ more⟩ := by
  have hsettled := h.isSettled_of_mergeable hmergeable
  refine ⟨List.append_ne_nil_of_left_ne_nil h.content_ne_nil more, Or.inr hsettled, fun hkind => ?_⟩
  exact absurd hkind (Kind.ne_undefined_of_isSettled hsettled)

theorem raw_of_mem_condensed {fs : List Fragment} (h : ∀ f ∈ fs, f.Raw) :
    ∀ f ∈ condensed fs, f.Raw :=
  forall_mem_condensed (fun _ g _ hmergeable hf _ => hf.join hmergeable g.content)
    fun f hf _ => h f hf

end Fragment

namespace Vocabulary

variable (v : Vocabulary)

/-- A run of blanks begins with a blank, and no plain character is one. -/
theorem not_isBlankRun_of_isPlain {text : List Char} (hne : text ≠ [])
    (hplain : ∀ c ∈ text, isPlain c = true) : ¬ isBlankRun text = true := by
  intro hblank
  -- There is a character in the text, and it cannot be blank and plain at once.
  rcases List.exists_mem_of_ne_nil text hne with ⟨c, hc⟩
  have hc' : Text.isBlank c = true := List.all_eq_true.mp (Bool.and_eq_true_iff.mp hblank).2 c hc
  have hplain' : isPlain c = true := hplain c hc
  rw [isPlain, hc', Bool.or_true] at hplain'
  exact Bool.noConfusion hplain'

/-- Whatever a word is, it is nothing that a scanner settles by itself. -/
theorem isSettled_kindOf {text : List Char} (hne : text ≠ [])
    (hplain : ∀ c ∈ text, isPlain c = true) : (v.kindOf text).isSettled = false := by
  rw [kindOf, if_neg (not_isBlankRun_of_isPlain hne hplain), kindOfWord]
  split_ifs <;> rfl

theorem resolve_of_isSettled {f : Fragment} (h : f.kind.isSettled = true) : v.resolve f = f := by
  rw [resolve, if_neg (Kind.ne_undefined_of_isSettled h)]

/-- Settling the kind of a word does not give it a kind that was settled before. -/
theorem isSettled_kind_resolve {f : Fragment} (h : f.Raw) :
    (v.resolve f).kind.isSettled = f.kind.isSettled := by
  rcases h.kind with hkind | hsettled
  · rw [resolve, if_pos hkind, hkind]
    exact v.isSettled_kindOf h.content_ne_nil (h.plain hkind)
  · rw [v.resolve_of_isSettled hsettled]

/-- Condensing respects the settling of kinds, as long as no two undefined
    fragments stand side by side. -/
theorem respected_resolve :
    Fragment.Respected (fun f g => f.Raw ∧ g = v.resolve f) Fragment.Apart where
  content h := by rw [h.2, content_resolve]
  joins_iff := by
    rintro f _ g _ ⟨hf, rfl⟩ ⟨hg, rfl⟩ hapart
    have hfsettled := v.isSettled_kind_resolve hf
    have hgsettled := v.isSettled_kind_resolve hg
    by_cases hsame : f.kind.isSettled = g.kind.isSettled
    · cases hf' : f.kind.isSettled with
      | true => rw [v.resolve_of_isSettled hf', v.resolve_of_isSettled (hsame.symm.trans hf')]
      | false =>
          -- Neither is settled, so two words would stand side by side.
          have hg' : g.kind.isSettled = false := hsame.symm.trans hf'
          exact absurd ⟨hf.kind_eq_undefined hf', hg.kind_eq_undefined hg'⟩ hapart
    · -- Kinds that differ in this respect are different, before and after.
      have hsame' : (v.resolve f).kind.isSettled ≠ (v.resolve g).kind.isSettled := by
        rwa [hfsettled, hgsettled]
      exact ⟨fun hjoins => absurd (congrArg Kind.isSettled hjoins.1) hsame,
        fun hjoins => absurd (congrArg Kind.isSettled hjoins.1) hsame'⟩
  join := by
    rintro f _ g _ ⟨hf, rfl⟩ ⟨hg, rfl⟩ - hjoins
    -- Only settled kinds are joined, and to those nothing is done.
    have hsettled := hf.isSettled_of_mergeable hjoins.2
    refine ⟨hf.join hjoins.2 g.content, ?_⟩
    rw [v.resolve_of_isSettled hsettled, content_resolve]
    exact (v.resolve_of_isSettled (f := ⟨f.kind, f.content ++ g.content⟩) hsettled).symm
  beside_of_kind_eq hkind hapart := by
    rw [Fragment.Apart, ← hkind]
    exact hapart

/-- Kinds may be settled before condensing or after it, where no two undefined
    fragments stand side by side. -/
theorem condensed_map_resolve {fs : List Fragment} (hraw : ∀ f ∈ fs, f.Raw)
    (hchain : fs.IsChain Fragment.Apart) :
    Fragment.condensed (fs.map v.resolve) = (Fragment.condensed fs).map v.resolve := by
  have hmatch : List.Forall₂ (fun f g => f.Raw ∧ g = v.resolve f) fs (fs.map v.resolve) := by
    rw [List.forall₂_map_right_iff, List.forall₂_same]
    exact fun f hf => ⟨hraw f hf, rfl⟩
  have hcondensed := v.respected_resolve.condensed hmatch (fun f hf => (hraw f hf).content_ne_nil)
    hchain
  -- Where one fragment after the other is the settled one, so is the whole list.
  have heq := hcondensed.imp fun f g h => h.2.symm
  rw [← List.forall₂_map_left_iff, List.forall₂_eq_eq_eq] at heq
  exact heq.symm

end Vocabulary

namespace Settings

/-- The fragments of a text are its condensed raw fragments, with their kinds
    settled. -/
theorem fragments_eq_map_resolve (s : Settings) (text : List Char) :
    s.fragments text
      = .ok ((Fragment.condensed (Fragment.scan text)).map s.vocabulary.resolve) := by
  rw [fragments_eq, s.vocabulary.condensed_map_resolve (Fragment.raw_of_mem_scan text)
    (Fragment.isChain_scan text)]

/-- A word among the fragments of a text was a word among the raw ones, and both
    sides of it were condensed by themselves. -/
theorem exists_word_of_fragments_eq (s : Settings) {text : List Char} {front back : List Fragment}
    {f : Fragment} (hok : s.fragments text = .ok (front ++ f :: back))
    (hsettled : f.kind.isSettled = false) :
    ∃ before behind, Fragment.scan text = before ++ ⟨.undefined, f.content⟩ :: behind ∧
      Fragment.condense (before.map s.vocabulary.resolve) = .ok front ∧
      Fragment.condense (behind.map s.vocabulary.resolve) = .ok back := by
  have hraw := Fragment.raw_of_mem_scan text
  have hchain := Fragment.isChain_scan text
  rw [s.fragments_eq_map_resolve, Except.ok.injEq] at hok
  rcases List.map_eq_append_iff.mp hok with ⟨rawFront, rest, hsplit, hfront, hrest⟩
  rcases List.map_eq_cons_iff.mp hrest with ⟨g, rawBack, hcons, hgf, hback⟩
  -- The fragment was undefined, so it is not the result of a join.
  have hg : g.Raw := Fragment.raw_of_mem_condensed hraw g (by
    rw [hsplit, hcons]
    exact List.mem_append_right _ List.mem_cons_self)
  have hkind : g.kind = .undefined := by
    rw [← hgf, s.vocabulary.isSettled_kind_resolve hg] at hsettled
    exact hg.kind_eq_undefined hsettled
  have hcontent : g = ⟨.undefined, f.content⟩ :=
    Fragment.ext hkind (by rw [← hgf, Vocabulary.content_resolve])
  rw [hcons] at hsplit
  rcases Fragment.exists_of_condensed_eq_append_cons (by rw [hkind]; decide) hsplit with
    ⟨before, behind, hscan, hbefore, hbehind⟩
  -- Either side is a stretch of raw fragments, so its kinds may be settled first too.
  rw [hscan] at hraw hchain
  rcases List.forall_mem_append.mp hraw with ⟨hrawBefore, hrawRest⟩
  rcases List.isChain_append.mp hchain with ⟨hchainBefore, hchainRest, -⟩
  refine ⟨before, behind, by rw [hscan, hcontent], ?_, ?_⟩
  · rw [Fragment.condense_eq, s.vocabulary.condensed_map_resolve hrawBefore hchainBefore,
      hbefore, hfront]
  · rw [Fragment.condense_eq, s.vocabulary.condensed_map_resolve
      (fun e he => hrawRest e (List.mem_cons_of_mem g he)) hchainRest.tail, hbehind, hback]

/-- Words are isolated. No two raw fragments side by side are undefined. So kinds
    may be settled before condensing or after it. And a fragment of a kind that
    depends on spelling, or of none, is one undefined raw fragment, to which
    nothing was joined: what stands before it and what stands behind it was
    condensed apart from it. -/
theorem words_isolated (text : List Char) :
    (Fragment.scan text).IsChain Fragment.Apart ∧
    (∀ v : Vocabulary, ∃ fs, Fragment.condense (Fragment.scan text) = .ok fs ∧
      Fragment.condense ((Fragment.scan text).map v.resolve) = .ok (fs.map v.resolve)) ∧
    ∀ (s : Settings) (front back : List Fragment) (f : Fragment),
      s.fragments text = .ok (front ++ f :: back) → f.kind.isSettled = false →
      ∃ before behind, Fragment.scan text = before ++ ⟨.undefined, f.content⟩ :: behind ∧
        Fragment.condense (before.map s.vocabulary.resolve) = .ok front ∧
        Fragment.condense (behind.map s.vocabulary.resolve) = .ok back := by
  have hraw := Fragment.raw_of_mem_scan text
  have hchain := Fragment.isChain_scan text
  refine ⟨hchain, fun v => ⟨_, Fragment.condense_eq _, ?_⟩, fun s front back f hok hsettled => ?_⟩
  · rw [Fragment.condense_eq, v.condensed_map_resolve hraw hchain]
  · exact s.exists_word_of_fragments_eq hok hsettled

/-- The number in `x/7`, which stands beside a slash. -/
theorem words_isolated_number :
    ∃ before behind, Fragment.scan ['x', '/', '7'] = before ++ ⟨.undefined, ['7']⟩ :: behind ∧
      Fragment.condense (before.map (Vocabulary.resolve ⟨["x"], []⟩))
        = .ok [⟨.keyword, ['x']⟩, ⟨.delimiter, ['/']⟩] ∧
      Fragment.condense (behind.map (Vocabulary.resolve ⟨["x"], []⟩)) = .ok [] :=
  (words_isolated ['x', '/', '7']).2.2 { vocabulary := ⟨["x"], []⟩ }
    [⟨.keyword, ['x']⟩, ⟨.delimiter, ['/']⟩] [] ⟨.numeric, ['7']⟩ rfl rfl

end Settings

end SourceTexture
