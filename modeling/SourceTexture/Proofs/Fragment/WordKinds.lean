import SourceTexture.Proofs.Fragment.Conservation
import SourceTexture.Proofs.Fragment.Neighbours
import SourceTexture.Proofs.Picture.Placement

/-!
# What a vocabulary decides

A vocabulary decides which words are keywords and which are datatypes, and
nothing else.

Two runs over one text are compared, under two vocabularies. Where the kinds are
settled they can only disagree on a word, and only on what sort of word it is.
The danger lies in the next stage. Condensing joins neighbours of one kind, so if
two words stood side by side, a vocabulary that gives them one kind would join
what another keeps apart, and everything behind would shift. No two words do,
because no two undefined fragments do, and that is carried along: the relation
between the two lists alone would not survive condensing.

From there on kinds no longer matter. Boxes are as wide as their text is long, so
the two layouts have the same boxes and differ in colour at most.

## Main definitions

* `Kind.isWord`: The kinds a vocabulary tells apart.
* `Fragment.Alike`: The same text, and the same kind unless both are words.
* `Fragment.WordsApart`: Two fragments are not both words.
* `Box.SamePlace`: Two boxes cover the same rectangle.

## Theorems

* `Vocabulary.resolve_alike`: Two vocabularies settle a fragment alike.
* `Vocabulary.isChain_resolve_scan`: No two neighbouring fragments are words.
* `Fragment.joins_iff_of_alike`: Alike neighbours join alike.
* `Fragment.respected_alike`: Condensing respects the likeness of fragments.
* `Layout.boxes_samePlace`: Alike fragments have boxes in the same places.
* `Settings.vocabulary_changes_words_only`: A vocabulary changes the kinds of
  words only.
-/

namespace SourceTexture

/-- Whether a kind is one of those a vocabulary tells apart. -/
def Kind.isWord : Kind → Bool
  | identifier | keyword | datatype => true
  | _ => false

namespace Fragment

/-- The same text, and the same kind up to the sort of word. -/
def Alike (f g : Fragment) : Prop :=
  f.content = g.content ∧
    (f.kind = g.kind ∨ f.kind.isWord = true ∧ g.kind.isWord = true)

/-- Neighbours that are not both words. -/
def WordsApart (f g : Fragment) : Prop :=
  ¬ (f.kind.isWord = true ∧ g.kind.isWord = true)

end Fragment

/-- Two boxes that cover the same rectangle. -/
def Box.SamePlace (a b : Box) : Prop :=
  a.x = b.x ∧ a.y = b.y ∧ a.width = b.width ∧ a.height = b.height

namespace Kind

theorem isWord_of_isSettled {k : Kind} (h : k.isSettled = true) : k.isWord = false := by
  cases k <;> first | rfl | exact absurd h Bool.false_ne_true

end Kind

namespace Vocabulary

variable (v w : Vocabulary)

theorem isWord_kindOfWord (word : List Char) : (v.kindOfWord word).isWord = true := by
  rw [kindOfWord]
  split_ifs <;> rfl

/-- Two vocabularies settle a piece of undefined text alike. -/
theorem kindOf_alike (text : List Char) :
    v.kindOf text = w.kindOf text ∨
      (v.kindOf text).isWord = true ∧ (w.kindOf text).isWord = true := by
  rw [kindOf, kindOf]
  -- The rules ask the same of the text, and only the third asks the vocabulary.
  split_ifs
  · exact Or.inl rfl
  · exact Or.inl rfl
  · exact Or.inr ⟨v.isWord_kindOfWord text, w.isWord_kindOfWord text⟩
  · exact Or.inl rfl
  · exact Or.inl rfl
  · exact Or.inl rfl

/-- Two vocabularies settle a fragment alike: as words, or as the same kind. -/
theorem resolve_alike (f : Fragment) : (v.resolve f).Alike (w.resolve f) := by
  refine ⟨by rw [content_resolve, content_resolve], ?_⟩
  rw [resolve, resolve]
  by_cases h : f.kind = .undefined
  · rw [if_pos h, if_pos h]
    exact kindOf_alike v w f.content
  · rw [if_neg h, if_neg h]
    exact Or.inl rfl

/-- What is settled as a word was undefined before, since the scanner knows no words. -/
theorem kind_eq_undefined_of_isWord_resolve {f : Fragment}
    (hraw : f.kind = .undefined ∨ f.kind.isSettled = true)
    (h : (v.resolve f).kind.isWord = true) : f.kind = .undefined := by
  rcases hraw with hraw | hraw
  · exact hraw
  · rw [resolve, if_neg (Kind.ne_undefined_of_isSettled hraw), Kind.isWord_of_isSettled hraw] at h
    exact Bool.noConfusion h

/-- No two neighbouring fragments of a text are words, whatever the words are. -/
theorem isChain_resolve_scan (text : List Char) :
    ((Fragment.scan text).map v.resolve).IsChain Fragment.WordsApart := by
  rw [List.isChain_map]
  have hchain := Fragment.isChain_scan text
  have hraw := Fragment.isSettled_of_mem_scan text
  refine (List.isChain_iff_getElem.mpr fun i hi => ?_)
  -- Two words side by side would have been undefined side by side.
  intro hboth
  exact List.isChain_iff_getElem.mp hchain i hi
    ⟨v.kind_eq_undefined_of_isWord_resolve (hraw _ (List.getElem_mem _)) hboth.1,
      v.kind_eq_undefined_of_isWord_resolve (hraw _ (List.getElem_mem _)) hboth.2⟩

end Vocabulary

namespace Fragment

/-- A line break is no word, so alike fragments are line breaks together. -/
theorem kind_eq_lineFeed_iff_of_alike {f f' : Fragment} (h : f.Alike f') :
    f.kind = .lineFeed ↔ f'.kind = .lineFeed := by
  have hne {k : Kind} (hword : k.isWord = true) : k ≠ .lineFeed := by
    intro hk
    rw [hk] at hword
    exact Bool.noConfusion hword
  rcases h.2 with hkind | ⟨hword, hword'⟩
  · rw [hkind]
  · exact ⟨fun hc => absurd hc (hne hword), fun hc => absurd hc (hne hword')⟩

/-- Alike neighbours that are not both words join alike. -/
theorem joins_iff_of_alike {f f' g g' : Fragment} (hf : f.Alike f') (hg : g.Alike g')
    (hapart : f.WordsApart g) :
    f.kind = g.kind ∧ f.kind.mergeable = true ↔ f'.kind = g'.kind ∧ f'.kind.mergeable = true := by
  rcases hf.2 with hkind | ⟨hword, hword'⟩
  · rcases hg.2 with hnext | ⟨hnext, hnext'⟩
    · rw [hkind, hnext]
    · -- Only the second is a word, so they join in neither run.
      constructor
      · intro hjoins
        exact absurd ⟨hjoins.1 ▸ hnext, hnext⟩ hapart
      · intro hjoins
        exact absurd ⟨hkind ▸ hjoins.1 ▸ hnext', hnext⟩ hapart
  · rcases hg.2 with hnext | ⟨hnext, -⟩
    · -- Only the first is.
      constructor
      · intro hjoins
        exact absurd ⟨hword, hjoins.1 ▸ hword⟩ hapart
      · intro hjoins
        exact absurd ⟨hword, hnext ▸ hjoins.1 ▸ hword'⟩ hapart
    · exact absurd ⟨hword, hnext⟩ hapart

/-- Condensing respects the likeness of fragments, as long as no two words stand
    side by side. -/
theorem respected_alike : Respected Alike WordsApart where
  content h := h.1
  joins_iff hf hg hapart := joins_iff_of_alike hf hg hapart
  join hf hg _ _ := ⟨congrArg₂ (· ++ ·) hf.1 hg.1, hf.2⟩
  beside_of_kind_eq hkind hapart := by
    rw [WordsApart, ← hkind]
    exact hapart

end Fragment

namespace Layout

variable (g : Geometry) (p : Palette)

/-- Alike fragments have boxes in the same places. -/
theorem boxes_samePlace {fs gs : List Fragment} (h : List.Forall₂ Fragment.Alike fs gs)
    (row before column : Nat) :
    List.Forall₂ Box.SamePlace ((Fragment.spots row before column fs).map (Spot.box g p))
      ((Fragment.spots row before column gs).map (Spot.box g p)) := by
  induction h generalizing row before column with
  | nil => exact List.Forall₂.nil
  | @cons f f' fs gs hfg hrest ih =>
      have hline := Fragment.kind_eq_lineFeed_iff_of_alike hfg
      -- Rows end at the same fragments on both sides, as both are line breaks or neither is.
      by_cases hfeed : f.kind = .lineFeed
      · rw [Fragment.spots_lineFeed hfeed, Fragment.spots_lineFeed (hline.mp hfeed)]
        exact ih (row + 1) 0 0
      · rw [Fragment.spots_of_ne hfeed, Fragment.spots_of_ne fun hc => hfeed (hline.mpr hc),
          ← hfg.1]
        refine List.Forall₂.cons ⟨rfl, rfl, ?_, rfl⟩ (ih row (before + 1) _)
        rw [Spot.box, Spot.box, hfg.1]

theorem map_eq_of_samePlace {edge : Box → Extent}
    (hedge : ∀ a b : Box, a.SamePlace b → edge a = edge b) {bs cs : List Box}
    (h : List.Forall₂ Box.SamePlace bs cs) :
    bs.map (fun b => (edge b).val) = cs.map fun b => (edge b).val := by
  induction h with
  | nil => rfl
  | cons hbc _ ih => rw [List.map_cons, List.map_cons, hedge _ _ hbc, ih]

/-- Layouts of boxes in the same places have the same size. -/
theorem size_eq_of_samePlace {bs cs : List Box} (h : List.Forall₂ Box.SamePlace bs cs) :
    (ofBoxes bs).width = (ofBoxes cs).width ∧ (ofBoxes bs).height = (ofBoxes cs).height := by
  constructor
  · apply Extent.ext
    rw [width_ofBoxes, width_ofBoxes, map_eq_of_samePlace (fun a b hab => ?_) h]
    rw [Box.right, Box.right, hab.1, hab.2.2.1]
  · apply Extent.ext
    rw [height_ofBoxes, height_ofBoxes, map_eq_of_samePlace (fun a b hab => ?_) h]
    rw [Box.bottom, Box.bottom, hab.2.1, hab.2.2.2]

end Layout

namespace Settings

/-- A vocabulary changes the kinds of words only. Under two vocabularies a text
    has fragments with the same contents one by one, and with the same kinds
    except where both are words. In any measures and colours the two layouts then
    have boxes in the same places, and the same size. -/
theorem vocabulary_changes_words_only (g : Geometry) (p : Palette) (v w : Vocabulary)
    (text : List Char) :
    ∃ fs gs, fragments ⟨g, p, v⟩ text = .ok fs ∧ fragments ⟨g, p, w⟩ text = .ok gs ∧
      List.Forall₂ Fragment.Alike fs gs ∧
      ∃ l m, layout ⟨g, p, v⟩ text = .ok l ∧ layout ⟨g, p, w⟩ text = .ok m ∧
        List.Forall₂ Box.SamePlace l.boxes.toList m.boxes.toList ∧
        l.width = m.width ∧ l.height = m.height := by
  have hfs := fragments_eq ⟨g, p, v⟩ text
  have hgs := fragments_eq ⟨g, p, w⟩ text
  -- The raw fragments are the same, and only then do the vocabularies come in.
  have hraw : List.Forall₂ Fragment.Alike ((Fragment.scan text).map v.resolve)
      ((Fragment.scan text).map w.resolve) := by
    rw [List.forall₂_map_left_iff, List.forall₂_map_right_iff, List.forall₂_same]
    exact fun f _ => v.resolve_alike w f
  have hne : ∀ f ∈ (Fragment.scan text).map v.resolve, f.content ≠ [] := by
    intro f hf
    rcases List.mem_map.mp hf with ⟨e, he, hef⟩
    rw [← hef, Vocabulary.content_resolve]
    exact Fragment.content_ne_nil_of_mem_scan text e he
  have halike := Fragment.respected_alike.condensed hraw hne (v.isChain_resolve_scan text)
  have hplaces := Layout.boxes_samePlace g p halike 0 0 0
  refine ⟨_, _, hfs, hgs, halike, _, _, layout_eq _ text hfs, layout_eq _ text hgs, ?_⟩
  rw [layoutOf, layoutOf, Layout.ofFragments_eq, Layout.ofFragments_eq,
    Layout.toList_boxes_ofBoxes, Layout.toList_boxes_ofBoxes]
  exact ⟨hplaces, Layout.size_eq_of_samePlace hplaces⟩

end Settings

end SourceTexture
