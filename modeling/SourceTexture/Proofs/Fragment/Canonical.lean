import SourceTexture.Proofs.Fragment.Condensing

/-!
# Condensed text is canonical

What two lists of fragments have in common when they condense to the same.

A fragment of a mergeable kind says of each of its characters what it belongs to,
and how many fragments the characters of one kind were found in is an accident.
Line breaks and unresolved text are different: each is one thing and stays one. So
a list of fragments comes down to a list of atoms, characters with a kind and
fragments that are never joined, and empty fragments contribute none.

Condensing keeps the atoms. It also depends on nothing else, since a run of
characters of one kind is as good as the fragment that holds them. And a list with
no empty fragment in it and no two neighbours to join is left alone. The condensed
form is therefore the one list of this shape with the given atoms, and two lists
have the same condensed form exactly if they have the same atoms.

## Main definitions

* `Atom`: A character of mergeable text, or a fragment that is never joined.
* `Fragment.expansion`: The atoms of a list of fragments.
* `Fragment.CanonicalForm`: Nothing empty, nothing left to join, and the same atoms.

## Theorems

* `Fragment.expansion_condensed`: Condensing keeps the atoms.
* `Fragment.condensed_eq_condensed_atoms`: It depends on the atoms only.
* `Fragment.condensed_of_divided`: Where nothing is left to join it changes nothing.
* `Fragment.canonicalForm_iff`: The condensed form is the only canonical one.
* `Fragment.condense_canonical`: Condensing succeeds with the canonical form, which
  the atoms determine.
-/

namespace SourceTexture

/-- What condensing neither divides nor joins. -/
inductive Atom where
  /-- A character in text of a mergeable kind. -/
  | character (kind : Kind) (c : Char)
  /-- A fragment that is never joined. -/
  | whole (f : Fragment)
  deriving DecidableEq

/-- An atom as a fragment by itself. -/
def Atom.fragment : Atom → Fragment
  | character kind c => ⟨kind, [c]⟩
  | whole f => f

namespace Fragment

/-- The atoms of a fragment. An empty one has none, whatever its kind. -/
def atoms (f : Fragment) : List Atom :=
  if f.content = [] then []
  else if f.kind.mergeable then f.content.map (.character f.kind)
  else [.whole f]

/-- The atoms of a list of fragments. -/
def expansion (fs : List Fragment) : List Atom :=
  fs.flatMap atoms

/-- Two fragments that do not join when they stand side by side. -/
def Divided (f g : Fragment) : Prop :=
  ¬ (f.kind = g.kind ∧ f.kind.mergeable = true)

/-- A list of fragments with the atoms of another in which nothing is empty and
    nothing is left to join. -/
structure CanonicalForm (fs cs : List Fragment) : Prop where
  /-- No fragment is empty. -/
  content_ne_nil : ∀ c ∈ cs, c.content ≠ []
  /-- No two neighbours are of one mergeable kind. -/
  divided : cs.IsChain Divided
  /-- The atoms are the same. -/
  expansion : expansion cs = expansion fs

theorem atoms_of_empty {f : Fragment} (h : f.content = []) : f.atoms = [] := by
  rw [atoms, if_pos h]

/-- A fragment of a kind that is joined comes apart into characters, also if it has
    none. -/
theorem atoms_of_mergeable {f : Fragment} (h : f.kind.mergeable = true) :
    f.atoms = f.content.map (.character f.kind) := by
  rw [atoms, if_pos h]
  split
  · next hempty => rw [hempty, List.map_nil]
  · rfl

theorem atoms_of_atomic {f : Fragment} (h : f.content ≠ []) (hatomic : ¬ f.kind.mergeable = true) :
    f.atoms = [.whole f] := by
  rw [atoms, if_neg h, if_neg hatomic]

theorem expansion_cons (f : Fragment) (fs : List Fragment) :
    expansion (f :: fs) = f.atoms ++ expansion fs :=
  List.flatMap_cons

theorem expansion_append (fs gs : List Fragment) :
    expansion (fs ++ gs) = expansion fs ++ expansion gs :=
  List.flatMap_append

/-- A join has the atoms of both sides. -/
theorem atoms_join {f g : Fragment} (hjoins : f.kind = g.kind ∧ f.kind.mergeable = true) :
    atoms ⟨f.kind, f.content ++ g.content⟩ = f.atoms ++ g.atoms := by
  have hg : g.kind.mergeable = true := hjoins.1 ▸ hjoins.2
  rw [atoms_of_mergeable hjoins.2, atoms_of_mergeable hg, ← hjoins.1, ← List.map_append]
  exact atoms_of_mergeable (f := ⟨f.kind, f.content ++ g.content⟩) hjoins.2

/-- Attaching a fragment puts its atoms in front, whether it is joined to its neighbour
    or not. An empty one has none. -/
theorem expansion_attach (f : Fragment) (gs : List Fragment) :
    expansion (f.attach gs) = f.atoms ++ expansion gs := by
  by_cases hf : f.content = []
  · rw [attach_of_empty hf, atoms_of_empty hf, List.nil_append]
  · cases gs with
    | nil => rw [attach_nil hf, expansion_cons]
    | cons g gs =>
        by_cases hjoins : f.kind = g.kind ∧ f.kind.mergeable = true
        · -- The join has the atoms of both its parts, in the same order.
          rw [attach_of_joins gs hf hjoins, expansion_cons, expansion_cons, atoms_join hjoins,
            List.append_assoc]
        · rw [attach_of_apart gs hf hjoins, expansion_cons]

/-- Condensing keeps the atoms. -/
theorem expansion_condensed (fs : List Fragment) : expansion (condensed fs) = expansion fs := by
  induction fs with
  | nil => rfl
  | cons f fs ih => rw [condensed_cons, expansion_attach, ih, expansion_cons]

/-- The atoms of a fragment, put in front one by one, are as good as the
    fragment. -/
theorem foldr_attach_atoms (f : Fragment) (rest : List Fragment) :
    (f.atoms.map Atom.fragment).foldr attach rest = f.attach rest := by
  by_cases hf : f.content = []
  · rw [atoms_of_empty hf, attach_of_empty hf]
    rfl
  · by_cases hmergeable : f.kind.mergeable = true
    · -- The characters are fragments of one kind, so they are joined into one again.
      have hkind : ∀ g ∈ f.atoms.map Atom.fragment, g.kind = f.kind := by
        rw [atoms_of_mergeable hmergeable, List.map_map]
        exact List.forall_mem_map.mpr fun c _ => rfl
      have hcontent : (f.atoms.map Atom.fragment).flatMap (·.content) = f.content := by
        rw [atoms_of_mergeable hmergeable, List.map_map, List.flatMap_map]
        exact List.flatMap_singleton' f.content
      rw [foldr_attach_of_kind hmergeable hkind, hcontent]
    · rw [atoms_of_atomic hf hmergeable]
      rfl

/-- Condensing depends on the atoms only. -/
theorem condensed_eq_condensed_atoms (fs : List Fragment) :
    condensed fs = condensed ((expansion fs).map Atom.fragment) := by
  induction fs with
  | nil => rfl
  | cons f fs ih =>
      -- The atoms of a fragment attach one by one to what the fragment attaches to at once.
      rw [condensed_cons, expansion_cons, List.map_append, condensed_append, ← ih,
        foldr_attach_atoms]

theorem condensed_congr {fs gs : List Fragment} (h : expansion fs = expansion gs) :
    condensed fs = condensed gs := by
  rw [condensed_eq_condensed_atoms fs, h, ← condensed_eq_condensed_atoms gs]

/-- Attaching leaves no neighbours that are still to be joined. -/
theorem isChain_divided_attach (f : Fragment) {gs : List Fragment} (h : gs.IsChain Divided) :
    (f.attach gs).IsChain Divided := by
  by_cases hf : f.content = []
  · rwa [attach_of_empty hf]
  · cases gs with
    | nil =>
        rw [attach_nil hf]
        exact List.isChain_singleton f
    | cons g gs =>
        by_cases hjoins : f.kind = g.kind ∧ f.kind.mergeable = true
        · -- The join has the kind of its second part, so what stands behind that stands
          -- behind the join.
          rw [attach_of_joins gs hf hjoins]
          rcases List.isChain_cons.mp h with ⟨hnext, htail⟩
          refine List.isChain_cons.mpr ⟨fun e he => ?_, htail⟩
          have hge := hnext e he
          rwa [Divided, ← hjoins.1] at hge
        · rw [attach_of_apart gs hf hjoins]
          exact List.isChain_cons_cons.mpr ⟨hjoins, h⟩

theorem isChain_divided_condensed (fs : List Fragment) : (condensed fs).IsChain Divided := by
  induction fs with
  | nil => exact List.isChain_nil
  | cons f fs ih => exact isChain_divided_attach f ih

/-- Where nothing is empty and nothing is left to join, condensing changes
    nothing. -/
theorem condensed_of_divided {cs : List Fragment} (hne : ∀ c ∈ cs, c.content ≠ [])
    (hdivided : cs.IsChain Divided) : condensed cs = cs := by
  induction cs with
  | nil => rfl
  | cons c cs ih =>
      rcases List.forall_mem_cons.mp hne with ⟨hc, hrest⟩
      rcases List.isChain_cons.mp hdivided with ⟨hnext, htail⟩
      rw [condensed_cons, ih hrest htail]
      -- The first fragment is attached to a list that is as it was, and it stays apart there.
      cases cs with
      | nil => exact attach_nil hc
      | cons d ds => exact attach_of_apart ds hc (hnext d rfl)

/-- A list has one canonical form, and that is the condensed one. -/
theorem canonicalForm_iff (fs cs : List Fragment) : CanonicalForm fs cs ↔ cs = condensed fs := by
  constructor
  · intro h
    -- Condensing looks at the expansion only, and leaves alone what is divided already.
    rw [← condensed_congr h.expansion, condensed_of_divided h.content_ne_nil h.divided]
  · intro h
    rw [h]
    exact ⟨content_ne_nil_of_mem_condensed fs, isChain_divided_condensed fs,
      expansion_condensed fs⟩

theorem condensed_eq_iff (fs gs : List Fragment) :
    condensed fs = condensed gs ↔ expansion fs = expansion gs := by
  refine ⟨fun h => ?_, condensed_congr⟩
  rw [← expansion_condensed fs, h, expansion_condensed]

/-- Condensing never fails. It gives the one canonical form, and gives the same for two
    lists exactly if their atoms are the same. So there is nothing to be done to a
    list that is condensed, and lists may be condensed before they are put
    together. -/
theorem condense_canonical (fs : List Fragment) :
    ∃ cs, condense fs = .ok cs ∧ (∀ ds, CanonicalForm fs ds ↔ ds = cs) ∧ condense cs = .ok cs ∧
      ∀ gs, (condense fs = condense gs ↔ expansion fs = expansion gs) ∧
        ∃ ds, condense gs = .ok ds ∧ condense (fs ++ gs) = condense (cs ++ ds) := by
  refine ⟨condensed fs, condense_eq fs, canonicalForm_iff fs, ?_, fun gs => ⟨?_, ?_⟩⟩
  · rw [condense_eq, condensed_congr (expansion_condensed fs)]
  · rw [condense_eq, condense_eq, Except.ok.injEq, condensed_eq_iff]
  · refine ⟨condensed gs, condense_eq gs, ?_⟩
    rw [condense_eq, condense_eq, Except.ok.injEq, condensed_eq_iff, expansion_append,
      expansion_append, expansion_condensed, expansion_condensed]

/-- An empty fragment keeps nothing apart, and unresolved text stays apart by itself. -/
example :
    condense [⟨.identifier, ['a']⟩, ⟨.space, []⟩, ⟨.identifier, ['b']⟩, ⟨.undefined, ['$']⟩,
        ⟨.undefined, ['$']⟩]
      = .ok [⟨.identifier, ['a', 'b']⟩, ⟨.undefined, ['$']⟩, ⟨.undefined, ['$']⟩] := rfl

end Fragment

end SourceTexture
