import SourceTexture.Proofs.Picture.Stacking

/-!
# Text that goes on

What is known of the fragments of a text before the text is complete.

A scanner hands fragments out as soon as they are complete, and whatever text
follows, it does not take them back. What it still holds back when the text
ends is one fragment at most. That fragment is open in every respect: a slash
becomes a comment, a word grows into a keyword.

Condensing adds one more fragment that is open. The last one that was handed
out may be joined with what comes next, and in `/**//` followed by a star it is:
the slash turns into a second block comment and the first one takes it in. It
does not reach further, because a join leaves everything in front of the
fragment that grows as it is. So of the condensed fragments the last two may be
disturbed by text that follows, and the others are there to stay.

Boxes are placed from the left and from the top. Those of the fragments that
stay are therefore where they will be in the picture of the whole text.

## Theorems

* `Fragment.condensed_append_eq_behind`: Condensed text may be condensed on.
* `Fragment.dropLast_condensed_isPrefix`: Only the last fragment can grow.
* `Fragment.take_condensed_isPrefix`: What text held back may disturb.
* `Fragment.scan_append`: A scanner does not take fragments back.
* `Fragment.spots_isPrefix`: Fragments in front keep their spots.
* `Settings.disturbs_last_two`: Appending text disturbs the last two fragments
  at most.
-/

namespace SourceTexture

namespace Fragment

/-! ### Condensing on -/

/-- Condensing may stop anywhere and go on from what it has done. -/
theorem condensed_append_eq_behind (fs gs : List Fragment) :
    condensed (fs ++ gs) = behind (condensed fs).reverse (condensed gs) := by
  -- Both sides are what the loop from the left ends with.
  have hfront : fs.foldlM absorb [] = .ok (condensed fs).reverse :=
    foldlM_absorb fs fun g hg => absurd hg List.not_mem_nil
  have hwhole : (fs ++ gs).foldlM absorb [] = .ok (condensed (fs ++ gs)).reverse :=
    foldlM_absorb (fs ++ gs) fun g hg => absurd hg List.not_mem_nil
  have hback : gs.foldlM absorb (condensed fs).reverse
      = .ok (behind (condensed fs).reverse (condensed gs)).reverse := by
    apply foldlM_absorb
    intro g hg
    exact content_ne_nil_of_mem_condensed fs g (List.mem_reverse.mp hg)
  rw [List.foldlM_append, hfront] at hwhole
  exact List.reverse_injective (Except.ok.inj (hwhole.symm.trans hback))

theorem behind_append_singleton (front : List Fragment) (last : Fragment) (rest : List Fragment) :
    behind (front ++ [last]).reverse rest = front ++ last.attach rest := by
  simp only [List.reverse_append, List.reverse_singleton, List.singleton_append, behind,
    List.reverse_reverse]

/-- What is condensed stays as it is when text follows, except for its last
    fragment, which may grow. -/
theorem dropLast_condensed_isPrefix (fs gs : List Fragment) :
    (condensed fs).dropLast <+: condensed (fs ++ gs) := by
  rw [condensed_append_eq_behind]
  rcases List.eq_nil_or_concat' (condensed fs) with hnil | ⟨front, last, hlast⟩
  · simp only [hnil, List.dropLast_nil, List.nil_prefix]
  · simp only [hlast, List.dropLast_concat, behind_append_singleton, List.prefix_append]

theorem length_attach_le (f : Fragment) (gs : List Fragment) :
    (f.attach gs).length ≤ gs.length + 1 := by
  unfold attach
  split <;> split_ifs <;> simp only [List.length_cons, List.length_nil] <;> omega

/-- Condensing leaves no more fragments than there were. -/
theorem length_condensed_le (fs : List Fragment) : (condensed fs).length ≤ fs.length := by
  induction fs with
  | nil => simp only [condensed_nil, Nat.le_refl]
  | cons f fs ih =>
      have hattach := length_attach_le f (condensed fs)
      simp only [condensed_cons, List.length_cons]
      omega

/-- More fragments behind a list do not add up. Of what the list comes to alone the last
    one may be joined, and the others make no more than they are. -/
theorem length_condensed_append_le (fs gs : List Fragment) :
    (condensed (fs ++ gs)).length ≤ (condensed fs).dropLast.length + (gs.length + 1) := by
  have hback := length_condensed_le gs
  rw [condensed_append_eq_behind]
  rcases List.eq_nil_or_concat' (condensed fs) with hnil | ⟨front, last, hlast⟩
  · simp only [hnil, List.reverse_nil, behind, List.dropLast_nil, List.length_nil]
    omega
  · -- The seam is at the last fragment in front, so that one is counted with those behind.
    have hattach := length_attach_le last (condensed gs)
    simp only [hlast, List.dropLast_concat, behind_append_singleton, List.length_append]
    omega

/-- Where fragments are held back for the time being, they and one more are all
    that other fragments in their place could disturb. -/
theorem take_condensed_isPrefix (fs held gs : List Fragment) :
    (condensed (fs ++ held)).take ((condensed (fs ++ held)).length - (held.length + 1))
      <+: condensed (fs ++ gs) := by
  -- Both lists begin with all but the last of what was condensed before.
  have hhere := dropLast_condensed_isPrefix fs held
  have hthere := dropLast_condensed_isPrefix fs gs
  have hlength := length_condensed_append_le fs held
  refine List.IsPrefix.trans ?_ hthere
  refine List.prefix_of_prefix_length_le (List.take_prefix _ _) hhere ?_
  rw [List.length_take]
  omega

end Fragment

/-! ### Scanning on -/

theorem Scanner.length_flush_le (s : Scanner) : s.flush.length ≤ 1 := by
  unfold flush
  split <;> simp only [List.length_nil, List.length_singleton, Nat.zero_le, Nat.le_refl]

namespace Fragment

/-- The scanner hands out some fragments of a text whatever follows, and holds
    back one at most. -/
theorem scan_append (text more : List Char) :
    ∃ out held rest, scan text = out ++ held ∧ held.length ≤ 1 ∧
      scan (text ++ more) = out ++ rest := by
  cases text with
  | nil => exact ⟨[], [], scan more, rfl, Nat.zero_le 1, rfl⟩
  | cons c text =>
      -- A mark in front is one of the text, so the rest is fed where the text ended.
      have hstrip : Text.stripMark (c :: text ++ more) = Text.stripMark (c :: text) ++ more :=
        Text.stripMark_append (Or.inl (List.cons_ne_nil c text))
      rw [scan_eq_feed (c :: text), scan_eq_feed (c :: text ++ more), hstrip,
        Scanner.feed_append, List.append_assoc]
      exact ⟨_, _, _, rfl, Scanner.length_flush_le _, rfl⟩

/-! ### Laying out on -/

/-- Fragments that come later do not move those in front of them. -/
theorem spots_isPrefix {fs gs : List Fragment} (h : fs <+: gs) (row before column : Nat) :
    spots row before column fs <+: spots row before column gs := by
  obtain ⟨rest, rfl⟩ := h
  induction fs generalizing row before column with
  | nil => exact List.nil_prefix
  | cons f fs ih =>
      rw [List.cons_append]
      -- Where the next fragment stands is settled by the first one, whatever is behind.
      by_cases hkind : f.kind = .lineFeed
      · simp only [spots_lineFeed hkind]
        exact ih _ _ _
      · simp only [spots_of_ne hkind]
        exact (List.prefix_cons_inj _).mpr (ih _ _ _)

end Fragment

namespace Settings

theorem boxes_isPrefix (s : Settings) {fs gs : List Fragment} (h : fs <+: gs) :
    (s.layoutOf fs).boxes.toList <+: (s.layoutOf gs).boxes.toList := by
  rw [boxes_layoutOf, boxes_layoutOf]
  exact (Fragment.spots_isPrefix h 0 0 0).map _

/-- Text that is put behind a text disturbs no more than its last two fragments. The
    last may have been held back at the end and be read differently now, and the one
    before may be joined with what becomes of it. -/
theorem take_fragments_isPrefix (s : Settings) {text more : List Char} {fs gs : List Fragment}
    (hfs : s.fragments text = .ok fs) (hgs : s.fragments (text ++ more) = .ok gs) :
    fs.take (fs.length - 2) <+: gs := by
  rcases Fragment.scan_append text more with ⟨out, held, rest, hscan, hheld, hscan'⟩
  rw [fragments_eq, hscan, List.map_append, Except.ok.injEq] at hfs
  rw [fragments_eq, hscan', List.map_append, Except.ok.injEq] at hgs
  have hdisturbed := Fragment.take_condensed_isPrefix (out.map s.vocabulary.resolve)
    (held.map s.vocabulary.resolve) (rest.map s.vocabulary.resolve)
  rw [hfs, hgs, List.length_map] at hdisturbed
  -- Two fragments are as many as may be disturbed, or more.
  refine List.IsPrefix.trans ?_ hdisturbed
  exact List.take_prefix_take_left (by omega)

/-- Appending text disturbs the last two fragments at most. All others are again
    the first fragments of the longer text, and the boxes they are laid out in
    are the first boxes of both texts. -/
theorem disturbs_last_two (s : Settings) (text more : List Char) :
    ∃ fs gs l m, s.fragments text = .ok fs ∧ s.fragments (text ++ more) = .ok gs ∧
      s.layout text = .ok l ∧ s.layout (text ++ more) = .ok m ∧
      fs.take (fs.length - 2) <+: gs ∧
      (s.layoutOf (fs.take (fs.length - 2))).boxes.toList <+: l.boxes.toList ∧
      (s.layoutOf (fs.take (fs.length - 2))).boxes.toList <+: m.boxes.toList := by
  obtain ⟨fs, hfs⟩ : ∃ fs, s.fragments text = .ok fs := ⟨_, s.fragments_eq text⟩
  obtain ⟨gs, hgs⟩ : ∃ gs, s.fragments (text ++ more) = .ok gs := ⟨_, s.fragments_eq _⟩
  -- The boxes follow the fragments, so it is enough to look at these.
  have hstays := s.take_fragments_isPrefix hfs hgs
  exact ⟨fs, gs, _, _, hfs, hgs, s.layout_eq text hfs, s.layout_eq _ hgs, hstays,
    s.boxes_isPrefix (List.take_prefix _ _), s.boxes_isPrefix hstays⟩

/-- Both of the last two fragments can be disturbed: a slash behind a block
    comment becomes part of it once a star follows. -/
example :
    fragments {} ['/', '*', '*', '/', '/']
        = .ok [⟨.blockComment, ['/', '*', '*', '/']⟩, ⟨.delimiter, ['/']⟩] ∧
      fragments {} ['/', '*', '*', '/', '/', '*']
        = .ok [⟨.blockComment, ['/', '*', '*', '/', '/', '*']⟩] :=
  ⟨rfl, rfl⟩

end Settings

end SourceTexture
