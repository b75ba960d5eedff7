import SourceTexture.Settings
import Mathlib.Data.List.Chain
import Mathlib.Data.List.Forall2

/-!
# What condensing gives

Condensing as a function of the rest of the text instead of the text before.

`Fragment.condense` works from the left and keeps what it has done, so a claim
about its result has to be carried through the loop together with the fragments
already there. Seen from the right nothing has to be carried: the fragments
behind are condensed already, and one more is put in front of them.
`Fragment.condensed` is that view. It joins by itself instead of asking for a
join, and `condense_eq` says that both give the same: along the way it shows
that no join is ever refused, because the loop only asks for those it has
already compared.

What holds of every fragment that goes in and survives a join holds of every
fragment that comes out. `forall_mem_condensed` is that principle, and the facts
about single fragments are instances of it. Facts about two runs are instances
of `Respected.condensed`: two lists that match one by one still do when they are
condensed, as long as the matching decides alike which neighbours join.

A kind that is never joined divides a text. What stands on one side of such a
fragment cannot tell what stands on the other, and both sides may be condensed
by themselves.

## Main definitions

* `Fragment.attach`: A fragment put in front of condensed ones.
* `Fragment.condensed`: The condensed form, built from the right.
* `Fragment.Respected`: A matching of fragments that condensing respects.

## Theorems

* `Fragment.condense_eq`: Condensing succeeds and gives the condensed form.
* `Fragment.forall_mem_condensed`: What joins preserve holds of the result.
* `Fragment.foldr_attach_of_kind`: A run of one kind is as good as one fragment.
* `Fragment.condensed_append_cons`: A fragment that is never joined divides the
  text.
* `Fragment.exists_of_condensed_eq_append_cons`: It stood in the text before.
* `Fragment.Respected.condensed`: Matching lists condense to matching lists.
* `Fragment.flatMap_content_condensed`: Condensing keeps the text.
* `Fragment.content_ne_nil_of_mem_condensed`: No condensed fragment is empty.
* `Settings.fragments_eq`: The fragments of a text are the condensed form of the
  resolved ones.
-/

namespace SourceTexture

namespace Fragment

/-- Puts a fragment in front of condensed ones: an empty one leaves no trace, one
    of the same mergeable kind as its neighbour becomes part of it. -/
def attach (f : Fragment) : List Fragment → List Fragment
  | [] => if f.content = [] then [] else [f]
  | g :: gs =>
    if f.content = [] then g :: gs
    else if f.kind = g.kind ∧ f.kind.mergeable then ⟨f.kind, f.content ++ g.content⟩ :: gs
    else f :: g :: gs

/-- The condensed form of a list of fragments. -/
def condensed (fragments : List Fragment) : List Fragment :=
  fragments.foldr attach []

@[simp] theorem condensed_nil : condensed [] = [] := rfl

theorem condensed_cons (f : Fragment) (fs : List Fragment) :
    condensed (f :: fs) = f.attach (condensed fs) := rfl

theorem attach_of_empty {f : Fragment} (h : f.content = []) (gs : List Fragment) :
    f.attach gs = gs := by
  cases gs with
  | nil => rw [attach, if_pos h]
  | cons g gs => rw [attach, if_pos h]

theorem attach_nil {f : Fragment} (h : f.content ≠ []) : f.attach [] = [f] := by
  rw [attach, if_neg h]

theorem attach_of_joins {f g : Fragment} (gs : List Fragment) (h : f.content ≠ [])
    (hjoins : f.kind = g.kind ∧ f.kind.mergeable) :
    f.attach (g :: gs) = ⟨f.kind, f.content ++ g.content⟩ :: gs := by
  rw [attach, if_neg h, if_pos hjoins]

theorem attach_of_apart {f g : Fragment} (gs : List Fragment) (h : f.content ≠ [])
    (hapart : ¬ (f.kind = g.kind ∧ f.kind.mergeable)) :
    f.attach (g :: gs) = f :: g :: gs := by
  rw [attach, if_neg h, if_neg hapart]

/-- In front of any condensed text a fragment begins one of its own kind. -/
theorem attach_eq_cons {f : Fragment} (h : f.content ≠ []) (gs : List Fragment) :
    ∃ g rest, f.attach gs = g :: rest ∧ g.kind = f.kind := by
  cases gs with
  | nil => exact ⟨f, [], attach_nil h, rfl⟩
  | cons g gs =>
      by_cases hjoins : f.kind = g.kind ∧ f.kind.mergeable
      · exact ⟨_, gs, attach_of_joins gs h hjoins, rfl⟩
      · exact ⟨f, g :: gs, attach_of_apart gs h hjoins, rfl⟩

/-- Two fragments of one mergeable kind may be joined before they are put in
    front. -/
theorem attach_attach_of_joins {f g : Fragment} (rest : List Fragment) (hf : f.content ≠ [])
    (hg : g.content ≠ []) (hjoins : g.kind = f.kind ∧ f.kind.mergeable) :
    g.attach (f.attach rest) = attach ⟨g.kind, g.content ++ f.content⟩ rest := by
  have hgf : g.content ++ f.content ≠ [] := List.append_ne_nil_of_left_ne_nil hg _
  have hkind : g.kind = f.kind := hjoins.1
  have hboth : g.kind = f.kind ∧ g.kind.mergeable := ⟨hkind, by rw [hkind]; exact hjoins.2⟩
  cases rest with
  | nil => rw [attach_nil hf, attach_of_joins [] hg hboth, attach_nil hgf]
  | cons h rest =>
      -- What follows joins all three or stays behind the two.
      by_cases hnext : f.kind = h.kind ∧ f.kind.mergeable
      · have hjoined : g.attach (⟨f.kind, f.content ++ h.content⟩ :: rest)
            = ⟨g.kind, g.content ++ (f.content ++ h.content)⟩ :: rest :=
          attach_of_joins rest hg hboth
        rw [attach_of_joins rest hf hnext, hjoined,
          attach_of_joins rest hgf (by rwa [hkind]), List.append_assoc]
      · rw [attach_of_apart rest hf hnext, attach_of_joins _ hg hboth,
          attach_of_apart rest hgf (by rwa [hkind])]

/-- A fragment that stands apart from its neighbour still does once that one was joined
    with what is behind it. -/
theorem attach_attach_of_apart {f g : Fragment} (rest : List Fragment) (hf : f.content ≠ [])
    (hg : g.content ≠ []) (hapart : ¬ (g.kind = f.kind ∧ f.kind.mergeable)) :
    g.attach (f.attach rest) = g :: f.attach rest := by
  -- The neighbour may have grown by then, but it has kept its kind.
  rcases attach_eq_cons hf rest with ⟨h, hs, heq, hkind⟩
  rw [heq, attach_of_apart hs hg]
  rw [hkind]
  intro hjoins
  exact hapart ⟨hjoins.1, hjoins.1 ▸ hjoins.2⟩

/-- What is condensed already, latest first, with condensed fragments behind it. -/
def behind : List Fragment → List Fragment → List Fragment
  | [], rest => rest
  | g :: gs, rest => gs.reverse ++ g.attach rest

theorem behind_nil {done : List Fragment} (h : ∀ g ∈ done, g.content ≠ []) :
    behind done [] = done.reverse := by
  cases done with
  | nil => rfl
  | cons g gs => rw [behind, attach_nil (h g List.mem_cons_self), List.reverse_cons]

/-- One round of the loop: it succeeds, keeps fragments non-empty, and leaves
    what the fragment would have given in front of the rest. -/
theorem absorb_eq_ok (f : Fragment) {done : List Fragment} (h : ∀ g ∈ done, g.content ≠ []) :
    ∃ next, absorb done f = .ok next ∧ (∀ g ∈ next, g.content ≠ []) ∧
      ∀ rest, behind next rest = behind done (f.attach rest) := by
  -- The cases are those of the loop body: skipped, first, joined, added behind.
  by_cases hf : f.content = []
  · refine ⟨done, if_pos hf, h, fun rest => ?_⟩
    rw [attach_of_empty hf]
  · cases done with
    | nil =>
        refine ⟨[f], by rw [absorb, if_neg hf], fun g hg => ?_, fun rest => rfl⟩
        rw [List.mem_singleton.mp hg]
        exact hf
    | cons g gs =>
        have hg : g.content ≠ [] := h g List.mem_cons_self
        by_cases hjoins : g.kind = f.kind ∧ f.kind.mergeable
        · refine ⟨⟨g.kind, g.content ++ f.content⟩ :: gs, ?_, fun d hd => ?_, fun rest => ?_⟩
          · rw [absorb, if_neg hf]
            simp only [if_pos hjoins, join_of_kind_eq hjoins.1]
            rfl
          · rcases List.mem_cons.mp hd with hd | hd
            · rw [hd]
              exact List.append_ne_nil_of_left_ne_nil hg _
            · exact h d (List.mem_cons_of_mem g hd)
          · rw [behind, behind, attach_attach_of_joins rest hf hg hjoins]
        · refine ⟨f :: g :: gs, ?_, fun d hd => ?_, fun rest => ?_⟩
          · rw [absorb, if_neg hf]
            simp only [if_neg hjoins]
          · rcases List.mem_cons.mp hd with hd | hd
            · rw [hd]
              exact hf
            · exact h d hd
          · rw [behind, behind, attach_attach_of_apart rest hf hg hjoins, List.reverse_cons,
              List.append_assoc, List.singleton_append]

/-- The whole loop, from any fragments that are condensed already. -/
theorem foldlM_absorb (fs : List Fragment) {done : List Fragment}
    (h : ∀ g ∈ done, g.content ≠ []) :
    fs.foldlM absorb done = .ok (behind done (condensed fs)).reverse := by
  -- A round moves one fragment from the rest to what is done, and `behind` of both
  -- together stays the same.
  induction fs generalizing done with
  | nil =>
      rw [condensed_nil, behind_nil h, List.reverse_reverse]
      rfl
  | cons f fs ih =>
      rcases absorb_eq_ok f h with ⟨next, hok, hne, hnext⟩
      rw [List.foldlM_cons, hok, condensed_cons, ← hnext]
      exact ih hne

/-- Condensing never fails, and comes to what the recursion from the right gives. -/
theorem condense_eq (fs : List Fragment) : condense fs = .ok (condensed fs) := by
  have hloop : fs.foldlM absorb [] = .ok (behind [] (condensed fs)).reverse :=
    foldlM_absorb fs fun g hg => absurd hg List.not_mem_nil
  rw [condense, hloop, behind]
  exact congrArg Except.ok (List.reverse_reverse _)

/-- What holds of a fragment, of the condensed ones behind it, and of the join with
    the first of these if there is one, holds of all once the fragment is put in
    front. -/
theorem forall_mem_attach {P : Fragment → Prop} {f : Fragment} {gs : List Fragment}
    (hf : f.content ≠ [] → P f) (hgs : ∀ g ∈ gs, P g)
    (hjoin : ∀ g ∈ gs.head?, f.content ≠ [] → f.kind = g.kind → f.kind.mergeable →
      P ⟨f.kind, f.content ++ g.content⟩) :
    ∀ g ∈ f.attach gs, P g := by
  by_cases hne : f.content = []
  · rw [attach_of_empty hne]
    exact hgs
  · cases gs with
    | nil =>
        rw [attach_nil hne]
        exact List.forall_mem_singleton.mpr (hf hne)
    | cons g gs =>
        rcases List.forall_mem_cons.mp hgs with ⟨-, hrest⟩
        -- Only the first of the condensed rest can change, and it changes by a join.
        by_cases hjoins : f.kind = g.kind ∧ f.kind.mergeable
        · rw [attach_of_joins gs hne hjoins]
          exact List.forall_mem_cons.mpr ⟨hjoin g rfl hne hjoins.1 hjoins.2, hrest⟩
        · rw [attach_of_apart gs hne hjoins]
          exact List.forall_mem_cons.mpr ⟨hf hne, hgs⟩

/-- What holds of the non-empty fragments that go in, and of a join if it holds of
    both sides, holds of every fragment that comes out. -/
theorem forall_mem_condensed {P : Fragment → Prop}
    (hjoin : ∀ f g : Fragment, f.kind = g.kind → f.kind.mergeable → P f → P g →
      P ⟨f.kind, f.content ++ g.content⟩)
    {fs : List Fragment} (h : ∀ f ∈ fs, f.content ≠ [] → P f) :
    ∀ f ∈ condensed fs, P f := by
  induction fs with
  | nil => exact fun f hf => absurd hf List.not_mem_nil
  | cons f fs ih =>
      have hf : f.content ≠ [] → P f := h f List.mem_cons_self
      have hrest := ih fun g hg => h g (List.mem_cons_of_mem f hg)
      -- The first fragment is attached to a list of which everything is known by then.
      rw [condensed_cons]
      refine forall_mem_attach hf hrest fun g hg hne hkind hmergeable => ?_
      exact hjoin f g hkind hmergeable (hf hne) (hrest g (List.mem_of_mem_head? hg))

theorem content_ne_nil_of_mem_condensed (fs : List Fragment) :
    ∀ f ∈ condensed fs, f.content ≠ [] :=
  forall_mem_condensed (fun _ _ _ _ hf _ => List.append_ne_nil_of_left_ne_nil hf _)
    fun _ _ hf => hf

/-- Attaching a fragment puts its text in front and leaves the rest of the text as it
    was. -/
theorem flatMap_content_attach (f : Fragment) (gs : List Fragment) :
    (f.attach gs).flatMap (·.content) = f.content ++ gs.flatMap (·.content) := by
  by_cases hf : f.content = []
  · rw [attach_of_empty hf, hf, List.nil_append]
  · cases gs with
    | nil => rw [attach_nil hf, List.flatMap_cons]
    | cons g gs =>
        by_cases hjoins : f.kind = g.kind ∧ f.kind.mergeable
        · rw [attach_of_joins gs hf hjoins, List.flatMap_cons, List.flatMap_cons,
            List.append_assoc]
        · rw [attach_of_apart gs hf hjoins, List.flatMap_cons]

/-- Condensing neither loses nor adds text. -/
theorem flatMap_content_condensed (fs : List Fragment) :
    (condensed fs).flatMap (·.content) = fs.flatMap (·.content) := by
  induction fs with
  | nil => rfl
  | cons f fs ih => rw [condensed_cons, flatMap_content_attach, ih, List.flatMap_cons]

theorem condensed_append (fs gs : List Fragment) :
    condensed (fs ++ gs) = fs.foldr attach (condensed gs) :=
  List.foldr_append

/-- In front of condensed text two pieces of one mergeable kind are as good as
    one, empty or not. -/
theorem attach_attach {kind : Kind} (h : kind.mergeable) (front back : List Char)
    (rest : List Fragment) :
    attach ⟨kind, front⟩ (attach ⟨kind, back⟩ rest) = attach ⟨kind, front ++ back⟩ rest := by
  by_cases hfront : front = []
  · rw [attach_of_empty (f := ⟨kind, front⟩) hfront, hfront, List.nil_append]
  · by_cases hback : back = []
    · rw [attach_of_empty (f := ⟨kind, back⟩) hback, hback, List.append_nil]
    · -- Both hold text and join each other, so it does not matter which is done first.
      exact attach_attach_of_joins rest hback hfront ⟨rfl, h⟩

/-- Any number of pieces of one mergeable kind is as good as one. -/
theorem foldr_attach_of_kind {kind : Kind} (h : kind.mergeable) {fs : List Fragment}
    (hfs : ∀ f ∈ fs, f.kind = kind) (rest : List Fragment) :
    fs.foldr attach rest = attach ⟨kind, fs.flatMap (·.content)⟩ rest := by
  induction fs with
  | nil => exact (attach_of_empty rfl rest).symm
  | cons f fs ih =>
      have hf : f = ⟨kind, f.content⟩ := Fragment.ext (hfs f List.mem_cons_self) rfl
      rw [List.foldr_cons, ih fun g hg => hfs g (List.mem_cons_of_mem f hg), List.flatMap_cons,
        ← attach_attach h]
      exact congrArg (attach · _) hf

/-! ### Where condensed text may be divided -/

/-- A fragment that is never joined divides the text: both sides are condensed by
    themselves. -/
theorem condensed_append_cons {f : Fragment} (hf : f.content ≠ [])
    (hatomic : ¬ f.kind.mergeable) (front back : List Fragment) :
    condensed (front ++ f :: back) = condensed front ++ f :: condensed back := by
  -- Whatever is put in front looks at its first neighbour only, and if that is the
  -- fragment itself they stay apart.
  induction front with
  | nil =>
      rw [List.nil_append, condensed_cons]
      cases condensed back with
      | nil => exact attach_nil hf
      | cons c cs => exact attach_of_apart cs hf fun hjoins => hatomic hjoins.2
  | cons e front ih =>
      rw [List.cons_append, condensed_cons, condensed_cons, ih]
      by_cases he : e.content = []
      · rw [attach_of_empty he, attach_of_empty he]
      · cases condensed front with
        | nil =>
            rw [attach_nil he]
            exact attach_of_apart _ he fun hjoins => hatomic (hjoins.1 ▸ hjoins.2)
        | cons c cs =>
            by_cases hjoins : e.kind = c.kind ∧ e.kind.mergeable
            · rw [attach_of_joins cs he hjoins]
              exact attach_of_joins _ he hjoins
            · rw [attach_of_apart cs he hjoins]
              exact attach_of_apart _ he hjoins

/-- A fragment that is never joined can only be in front of condensed text by
    being put there, or by standing in the text. -/
theorem attach_eq_append_cons {e f : Fragment} (he : e.content ≠ [])
    (hatomic : ¬ f.kind.mergeable) {cs front back : List Fragment}
    (h : e.attach cs = front ++ f :: back) :
    (front = [] ∧ f = e ∧ back = cs) ∨
      ∃ front', cs = front' ++ f :: back ∧ e.attach front' = front := by
  cases cs with
  | nil =>
      rw [attach_nil he] at h
      rcases List.append_eq_singleton_iff.mp h.symm with ⟨hfront, hcons⟩ | ⟨-, hcons⟩
      · rcases List.cons.inj hcons with ⟨hf, hback⟩
        exact Or.inl ⟨hfront, hf, hback⟩
      · exact absurd hcons (List.cons_ne_nil f back)
  | cons c cs =>
      by_cases hjoins : e.kind = c.kind ∧ e.kind.mergeable
      · rw [attach_of_joins cs he hjoins] at h
        rcases List.cons_eq_append_iff.mp h with ⟨-, hcons⟩ | ⟨front', hfront, hcs⟩
        · rw [(List.cons.inj hcons).1] at hatomic
          exact absurd hjoins.2 hatomic
        · refine Or.inr ⟨c :: front', by rw [hcs, List.cons_append], ?_⟩
          rw [attach_of_joins front' he hjoins, hfront]
      · rw [attach_of_apart cs he hjoins] at h
        rcases List.cons_eq_append_iff.mp h with ⟨hfront, hcons⟩ | ⟨front', hfront, hcs⟩
        · rcases List.cons.inj hcons with ⟨hf, hback⟩
          exact Or.inl ⟨hfront, hf, hback⟩
        · refine Or.inr ⟨front', hcs, ?_⟩
          -- What is left of the text in front begins as the text did, if it begins.
          cases front' with
          | nil => rw [attach_nil he, hfront]
          | cons d front' =>
              rw [(List.cons.inj hcs).1] at hjoins
              rw [attach_of_apart front' he hjoins, hfront]

/-- Wherever such a fragment stands in the condensed text, it stood in the text
    before, and both sides of it were condensed by themselves. -/
theorem exists_of_condensed_eq_append_cons {f : Fragment} (hatomic : ¬ f.kind.mergeable)
    {fs front back : List Fragment} (h : condensed fs = front ++ f :: back) :
    ∃ front' back', fs = front' ++ f :: back' ∧ condensed front' = front ∧
      condensed back' = back := by
  induction fs generalizing front with
  | nil => exact absurd h.symm (List.append_ne_nil_of_right_ne_nil _ (List.cons_ne_nil f back))
  | cons e es ih =>
      rw [condensed_cons] at h
      by_cases he : e.content = []
      · rw [attach_of_empty he] at h
        rcases ih h with ⟨front', back', hes, hfront, hback⟩
        refine ⟨e :: front', back', by rw [hes, List.cons_append], ?_, hback⟩
        rw [condensed_cons, attach_of_empty he, hfront]
      · -- Either the first fragment is the one looked for, or that one is in the rest.
        rcases attach_eq_append_cons he hatomic h with ⟨hfront, hf, hback⟩ | ⟨rest, hrest, hfront⟩
        · exact ⟨[], es, by rw [hf, List.nil_append], hfront.symm, hback.symm⟩
        · rcases ih hrest with ⟨front', back', hes, hcondensed, hback⟩
          refine ⟨e :: front', back', by rw [hes, List.cons_append], ?_, hback⟩
          rw [condensed_cons, hcondensed, hfront]

/-! ### Two runs side by side -/

/-- In front of condensed text stands a fragment of the kind the text began
    with. -/
theorem kind_of_mem_head?_condensed {f : Fragment} (hf : f.content ≠ []) (fs : List Fragment) :
    ∀ c ∈ (condensed (f :: fs)).head?, c.kind = f.kind := by
  intro c hc
  rcases attach_eq_cons hf (condensed fs) with ⟨d, rest, heq, hkind⟩
  rw [condensed_cons, heq, List.head?_cons, Option.mem_some_iff] at hc
  rw [← hc, hkind]

/-- A correspondence between the fragments of two runs that condensing respects,
    for neighbours that may stand side by side: they have the same text, join
    alike, and correspond again once they are joined. -/
structure Respected (Match Beside : Fragment → Fragment → Prop) : Prop where
  /-- Fragments that match have the same text. -/
  content : ∀ {f f'}, Match f f' → f.content = f'.content
  /-- Neighbours join in one run exactly if they do in the other. -/
  joins_iff : ∀ {f f' g g'}, Match f f' → Match g g' → Beside f g →
    (f.kind = g.kind ∧ f.kind.mergeable = true ↔ f'.kind = g'.kind ∧ f'.kind.mergeable = true)
  /-- Joins match. -/
  join : ∀ {f f' g g'}, Match f f' → Match g g' → Beside f g →
    f.kind = g.kind ∧ f.kind.mergeable = true →
      Match ⟨f.kind, f.content ++ g.content⟩ ⟨f'.kind, f'.content ++ g'.content⟩
  /-- Whether neighbours may stand side by side depends on the kind of the second. -/
  beside_of_kind_eq : ∀ {f g h}, g.kind = h.kind → Beside f g → Beside f h

namespace Respected

variable {Match Beside : Fragment → Fragment → Prop} (hrespected : Respected Match Beside)
include hrespected

/-- Attaching keeps the correspondence, provided that the fragment and its new neighbour
    may stand beside each other. -/
theorem attach {f f' : Fragment} (hf : Match f f') (hne : f.content ≠ [])
    {gs gs' : List Fragment} (hgs : List.Forall₂ Match gs gs')
    (hbeside : ∀ g ∈ gs.head?, Beside f g) :
    List.Forall₂ Match (f.attach gs) (f'.attach gs') := by
  have hne' : f'.content ≠ [] := hrespected.content hf ▸ hne
  cases hgs with
  | nil =>
      rw [attach_nil hne, attach_nil hne']
      exact List.Forall₂.cons hf List.Forall₂.nil
  | @cons g g' gs gs' hg hgs =>
      have hfg := hbeside g rfl
      -- Both sides join or neither does, so the same case applies to both.
      have hiff := hrespected.joins_iff hf hg hfg
      by_cases hjoins : f.kind = g.kind ∧ f.kind.mergeable = true
      · rw [attach_of_joins _ hne hjoins, attach_of_joins _ hne' (hiff.mp hjoins)]
        exact List.Forall₂.cons (hrespected.join hf hg hfg hjoins) hgs
      · rw [attach_of_apart _ hne hjoins, attach_of_apart _ hne' fun h => hjoins (hiff.mpr h)]
        exact List.Forall₂.cons hf (List.Forall₂.cons hg hgs)

/-- Lists of fragments that match one by one match one by one when they are
    condensed. -/
theorem condensed {fs gs : List Fragment} (h : List.Forall₂ Match fs gs)
    (hne : ∀ f ∈ fs, f.content ≠ []) (hchain : fs.IsChain Beside) :
    List.Forall₂ Match (condensed fs) (condensed gs) := by
  -- The lists are condensed from the right, so the rests match already.
  induction h with
  | nil => exact List.Forall₂.nil
  | @cons f g fs gs hfg hrest ih =>
      have hne' : ∀ f ∈ fs, f.content ≠ [] := fun f hf => hne f (List.mem_cons_of_mem _ hf)
      rcases List.isChain_cons.mp hchain with ⟨hhead, htail⟩
      rw [condensed_cons, condensed_cons]
      refine hrespected.attach hfg (hne f List.mem_cons_self) (ih hne' htail) ?_
      intro c hc
      cases fs with
      | nil => exact absurd hc (Option.not_mem_none c)
      | cons e es =>
          have hkind := kind_of_mem_head?_condensed (hne' e List.mem_cons_self) es c hc
          exact hrespected.beside_of_kind_eq hkind.symm (hhead e rfl)

end Respected

end Fragment

namespace Settings

/-- The fragments of a text are the condensed form of the scanned ones, with their
    kinds settled. -/
theorem fragments_eq (s : Settings) (text : List Char) :
    s.fragments text
      = .ok (Fragment.condensed ((Fragment.scan text).map s.vocabulary.resolve)) :=
  Fragment.condense_eq _

/-- Laying a text out succeeds whenever its fragments are there to lay out. -/
theorem layout_eq (s : Settings) (text : List Char) {fs : List Fragment}
    (h : s.fragments text = .ok fs) : s.layout text = .ok (s.layoutOf fs) := by
  rw [layout, h]
  rfl

end Settings

end SourceTexture
