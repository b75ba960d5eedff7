import SourceTexture.CommandLine.Run
import Mathlib.Data.List.Basic

/-!
# Sources and their pictures

Where a source lies, and where its picture goes.

The picture of a source goes next to it, under the name of the source with four
more characters. That is said of paths, and what counts on a disk is the place a
path leads to. The two agree as long as the path ends in the name of an entry: the
longer path then takes the same way up to the last name and ends at a neighbour of
the source. A path may end in other ways, in a slash, in a step on the spot or in
a step up. Then it leads to a directory, and there is nothing to be read.

So the places of sources and the places of pictures have nothing in common: the
names of the first have the extension of a source and those of the second that of
a picture. And different places of sources give different places of pictures.

## Main definitions

* `Path.pieces`: What stands between the slashes of a text.
* `Node.bytes?`: The bytes that can be read from a place.
* `Disk.Leads`: A path leads to a place.

## Theorems

* `Path.exists_last_name`: A path that asks for no directory ends in a name, which
  a text behind it lengthens.
* `Path.nameExtension?_append`: What the last dot of a name is followed by.
* `Disk.read_eq_ok_iff`, `Disk.write_eq_ok_iff`: When reading and writing succeed.
* `Disk.exists_parent_of_resolve`: The last step of a way.
* `Disk.Leads.of_source`: The way to a source, and to the place beside it.
-/

namespace SourceTexture

namespace Path

/-- What stands before, between and behind the slashes of a text. -/
def pieces (text : List Char) : List Name :=
  (split text).1 :: (split text).2

theorem pieces_cons_slash (text : List Char) : pieces ('/' :: text) = [] :: pieces text := by
  simp only [pieces, split, if_true]

theorem pieces_cons_of_ne {c : Char} (h : c ≠ '/') {text : List Char} {first : Name}
    {others : List Name} (hpieces : pieces text = first :: others) :
    pieces (c :: text) = (c :: first) :: others := by
  unfold pieces at hpieces
  rcases List.cons.inj hpieces with ⟨hfirst, hothers⟩
  simp only [pieces, split, if_neg h, hfirst, hothers]

/-- A text without a slash is in one piece. -/
theorem pieces_of_not_mem {text : List Char} (h : '/' ∉ text) : pieces text = [text] := by
  induction text with
  | nil => rfl
  | cons c text ih =>
      have hc : c ≠ '/' := Ne.symm (List.ne_of_not_mem_cons h)
      exact pieces_cons_of_ne hc (ih (List.not_mem_of_not_mem_cons h))

/-- Text without a slash lengthens the last piece of the text before it. That piece
    is empty only behind a slash. -/
theorem exists_pieces (text : List Char) :
    ∃ front last, pieces text = front ++ [last] ∧
      (last = [] → text = [] ∨ text.getLast? = some '/') ∧
      ∀ suffix, '/' ∉ suffix → pieces (text ++ suffix) = front ++ [last ++ suffix] := by
  induction text with
  | nil => exact ⟨[], [], rfl, fun _ => Or.inl rfl, fun suffix h => pieces_of_not_mem h⟩
  | cons c text ih =>
      rcases ih with ⟨front, last, hpieces, hempty, hlonger⟩
      by_cases hc : c = '/'
      · subst hc
        refine ⟨[] :: front, last, by rw [pieces_cons_slash, hpieces, List.cons_append],
          fun hlast => Or.inr ?_, fun suffix hsuffix => ?_⟩
        · rcases hempty hlast with htext | htext
          · rw [htext, List.getLast?_singleton]
          · rw [List.getLast?_cons, htext, Option.getD_some]
        · rw [List.cons_append, pieces_cons_slash, hlonger suffix hsuffix, List.cons_append]
      · cases front with
        | nil =>
            -- The character lengthens the only piece.
            exact ⟨[], c :: last, pieces_cons_of_ne hc hpieces,
              fun hlast => absurd hlast (List.cons_ne_nil c last),
              fun suffix hsuffix => pieces_cons_of_ne hc (hlonger suffix hsuffix)⟩
        | cons first front =>
            refine ⟨(c :: first) :: front, last, pieces_cons_of_ne hc hpieces,
              fun hlast => Or.inr ?_,
              fun suffix hsuffix => pieces_cons_of_ne hc (hlonger suffix hsuffix)⟩
            rcases hempty hlast with htext | htext
            · -- An empty text has only one piece.
              have hlength := congrArg List.length hpieces
              simp only [htext, pieces, split, List.length_cons, List.length_append,
                List.length_nil] at hlength
              omega
            · rw [List.getLast?_cons, htext, Option.getD_some]

theorem parse?_of_ne {text : List Char} (h : text ≠ []) :
    parse? text = some ⟨text.head? = some '/', (pieces text).filter (· ≠ []),
      text.getLast? = some '/'⟩ := by
  rw [parse?, if_neg h]
  rfl

theorem filter_append_name (front : List Name) {name : Name} (h : name ≠ []) :
    (front ++ [name]).filter (· ≠ []) = front.filter (· ≠ []) ++ [name] := by
  rw [List.filter_append, List.filter_singleton, decide_eq_true h]
  rfl

/-- A text that does not end in a slash ends in none with more text behind it, if this
    has no slash. -/
theorem getLast?_append_ne_slash {text suffix : List Char} (h : text.getLast? ≠ some '/')
    (hsuffix : '/' ∉ suffix) : (text ++ suffix).getLast? ≠ some '/' := by
  intro hslash
  rw [List.getLast?_append] at hslash
  -- The last character is that of the text behind, if this has any.
  cases hlast : suffix.getLast? with
  | none =>
      rw [hlast, Option.none_or] at hslash
      exact h hslash
  | some c =>
      rw [hlast, Option.some_or, Option.some.injEq] at hslash
      rw [hslash] at hlast
      exact hsuffix (List.mem_of_getLast? hlast)

/-- A path that asks for no directory ends in a name, and a text behind it lengthens
    that name. -/
theorem exists_last_name {text : List Char} {p : Path} (hparse : parse? text = some p)
    (hopen : p.closed = false) :
    ∃ front last, p.names = front ++ [last] ∧ last ≠ [] ∧
      ∀ suffix, '/' ∉ suffix → ∃ q, parse? (text ++ suffix) = some q ∧
        q.absolute = p.absolute ∧ q.names = front ++ [last ++ suffix] ∧ q.closed = false := by
  have hne : text ≠ [] := by
    intro hnil
    rw [(parse?_eq_none_iff text).mpr hnil] at hparse
    exact absurd hparse (Option.some_ne_none p).symm
  rw [parse?_of_ne hne, Option.some.injEq] at hparse
  subst hparse
  -- The path is open, so it does not end in a slash and its last piece is a name.
  have hend : text.getLast? ≠ some '/' := of_decide_eq_false hopen
  rcases exists_pieces text with ⟨front, last, hpieces, hempty, hlonger⟩
  have hlast : last ≠ [] := by
    intro hnil
    rcases hempty hnil with htext | htext
    · exact hne htext
    · exact hend htext
  refine ⟨front.filter (· ≠ []), last, ?_, hlast, fun suffix hsuffix => ?_⟩
  · simp only [hpieces]
    exact filter_append_name front hlast
  · have hne' : text ++ suffix ≠ [] := fun h => hne (List.append_eq_nil_iff.mp h).1
    have hlast' : last ++ suffix ≠ [] := fun h => hlast (List.append_eq_nil_iff.mp h).1
    refine ⟨_, parse?_of_ne hne', ?_, ?_, decide_eq_false (getLast?_append_ne_slash hend hsuffix)⟩
    · simp only [List.head?_append_of_ne_nil text hne]
    · simp only [hlonger suffix hsuffix]
      exact filter_append_name front hlast'

/-- What the last dot of a name is followed by, if the dot has something before it. -/
theorem nameExtension?_append {name : Name} (hname : name ≠ []) {ending : List Char}
    (h : '.' ∉ ending) : nameExtension? (name ++ '.' :: ending) = some ending := by
  -- Read from its end, the name begins with the ending, which has no dot.
  have hrest : (name ++ '.' :: ending).reverse.dropWhile (· ≠ '.') = '.' :: name.reverse := by
    rw [List.reverse_append, List.reverse_cons, List.append_assoc,
      List.dropWhile_append_of_pos fun c hc => ?_]
    · rfl
    · have hne : c ≠ '.' := fun heq => h (heq ▸ List.mem_reverse.mp hc)
      exact decide_eq_true hne
  have hlength : 1 ≤ name.length := List.length_pos_iff.mpr hname
  simp only [nameExtension?]
  rw [hrest, List.length_cons, List.length_reverse, if_neg (by omega)]
  have hdrop : name ++ '.' :: ending = (name ++ ['.']) ++ ending := by
    rw [List.append_assoc, List.singleton_append]
  rw [hdrop, List.drop_left' (by rw [List.length_append, List.length_singleton])]

/-- The name a path ends at is its last one, unless that is a step. -/
theorem fileName?_of_last {p : Path} {front : List Name} {last : Name}
    (h : p.names = front ++ [last]) (hspot : last ≠ ['.']) :
    p.fileName? = if last = ['.', '.'] then none else some last := by
  unfold fileName?
  rw [h, List.filter_append, List.filter_singleton, decide_eq_true hspot, cond_true,
    List.getLast?_append, List.getLast?_singleton, Option.some_or, Option.filter_some]
  -- The only other step is the one upwards.
  by_cases hup : last = ['.', '.']
  · rw [if_pos hup, hup]
    rfl
  · rw [if_neg hup, decide_eq_true hup]
    rfl

end Path

/-- The bytes that can be read from a place. -/
def Node.bytes? : Node → Option (List UInt8)
  | directory => none
  | file bytes => some bytes
  | picture image => some image.toPng.toList

/-- Everything has bytes except a directory. -/
theorem Node.bytes?_eq_none_iff (node : Node) : node.bytes? = none ↔ node = .directory := by
  cases node with
  | directory => exact ⟨fun _ => rfl, fun _ => rfl⟩
  | file bytes => exact ⟨nofun, nofun⟩
  | picture image => exact ⟨nofun, nofun⟩

namespace Disk

/-- Whether a path leads to a place without asking for a directory there. -/
def Leads (d : Disk) (path : List Char) (place : Place) : Prop :=
  ∃ p, Path.parse? path = some p ∧ p.closed = false ∧ d.resolve p = .ok place

/-- A path leads to one place only. -/
theorem Leads.unique {d : Disk} {path : List Char} {place place' : Place}
    (h : d.Leads path place) (h' : d.Leads path place') : place = place' := by
  rcases h with ⟨p, hparse, -, hresolve⟩
  rcases h' with ⟨p', hparse', -, hresolve'⟩
  rw [hparse, Option.some.injEq] at hparse'
  rw [← hparse', hresolve, Except.ok.injEq] at hresolve'
  exact hresolve'

section

variable {d : Disk} {path : List Char} {p : Path} {place : Place}
  (hparse : Path.parse? path = some p) (hresolve : d.resolve p = .ok place)
include hparse hresolve

/-- Reading at a place gives the bytes there, unless the path asks for a directory. -/
theorem read_of_resolve (bytes : List UInt8) :
    d.read path = .ok bytes ↔
      p.closed = false ∧ ∃ node, d.node? place = some node ∧ node.bytes? = some bytes := by
  unfold read
  simp only [hparse, hresolve, bind, Except.bind]
  cases d.node? place with
  | none => exact ⟨nofun, fun ⟨_, _, hnode, _⟩ => nomatch hnode⟩
  | some node =>
      simp only [Option.some.injEq, exists_eq_left']
      cases node with
      | directory => simp only [Node.bytes?, reduceCtorEq, and_false]
      | file content | picture image =>
          -- Files and pictures are read alike, once the path is open.
          cases p.closed with
          | false => simp only [Node.bytes?, Bool.false_eq_true, if_false, Except.ok.injEq,
              Option.some.injEq, true_and]
          | true => simp only [if_true, reduceCtorEq, false_and]

/-- Writing at a place changes it, unless the path asks for a directory or there is
    one. -/
theorem write_of_resolve (image : Image) (after : Disk) :
    d.write path image = .ok after ↔
      p.closed = false ∧ d.node? place ≠ some .directory ∧
        after = d.put place (.picture image) := by
  unfold write
  simp only [hparse, hresolve, bind, Except.bind]
  cases p.closed with
  | true => simp only [if_true, reduceCtorEq, false_and]
  | false =>
      simp only [Bool.false_eq_true, if_false, true_and]
      -- Whatever stands there is overwritten, if it is no directory.
      split
      · next hdirectory => exact ⟨nofun, fun h => absurd hdirectory h.1⟩
      · next hvacant =>
          exact ⟨fun h => ⟨hvacant, (Except.ok.inj h).symm⟩, fun h => congrArg Except.ok h.2.symm⟩

end

/-- Where a path leads nowhere nothing is read or written. -/
theorem ne_ok_of_no_way {d : Disk} {path : List Char}
    (h : ¬ ∃ p place, Path.parse? path = some p ∧ d.resolve p = .ok place) :
    (∀ bytes, d.read path ≠ .ok bytes) ∧ ∀ image after, d.write path image ≠ .ok after := by
  unfold read write
  -- Either the text is no path, or the path breaks off.
  cases hparse : Path.parse? path with
  | none => exact ⟨nofun, nofun⟩
  | some p =>
      cases hresolve : d.resolve p with
      | error e =>
          simp only [hresolve, bind, Except.bind]
          exact ⟨nofun, nofun⟩
      | ok place => exact absurd ⟨p, place, hparse, hresolve⟩ h

/-- Reading succeeds where the path leads to something that holds bytes. -/
theorem read_eq_ok_iff (d : Disk) (path : List Char) (bytes : List UInt8) :
    d.read path = .ok bytes ↔
      ∃ place node, d.Leads path place ∧ d.node? place = some node ∧
        node.bytes? = some bytes := by
  constructor
  · intro h
    -- Something was read, so there is a way.
    rcases Classical.not_not.mp fun hnone => (ne_ok_of_no_way hnone).1 bytes h with
      ⟨p, place, hparse, hresolve⟩
    rcases (read_of_resolve hparse hresolve bytes).mp h with ⟨hopen, node, hnode, hbytes⟩
    exact ⟨place, node, ⟨p, hparse, hopen, hresolve⟩, hnode, hbytes⟩
  · rintro ⟨place, node, ⟨p, hparse, hopen, hresolve⟩, hnode, hbytes⟩
    exact (read_of_resolve hparse hresolve bytes).mpr ⟨hopen, node, hnode, hbytes⟩

/-- Writing succeeds where the path leads to a place that is no directory, and it
    changes that place only. -/
theorem write_eq_ok_iff (d : Disk) (path : List Char) (image : Image) (after : Disk) :
    d.write path image = .ok after ↔
      ∃ place, d.Leads path place ∧ d.node? place ≠ some .directory ∧
        after = d.put place (.picture image) := by
  constructor
  · intro h
    -- Something was written, so there is a way.
    rcases Classical.not_not.mp fun hnone => (ne_ok_of_no_way hnone).2 image after h with
      ⟨p, place, hparse, hresolve⟩
    rcases (write_of_resolve hparse hresolve image after).mp h with ⟨hopen, hvacant, hafter⟩
    exact ⟨place, ⟨p, hparse, hopen, hresolve⟩, hvacant, hafter⟩
  · rintro ⟨place, ⟨p, hparse, hopen, hresolve⟩, hvacant, hafter⟩
    exact (write_of_resolve hparse hresolve image after).mpr ⟨hopen, hvacant, hafter⟩

/-- From a directory every step can be taken, and from anything else none can. -/
theorem step_eq_ok_iff (d : Disk) (place : Place) (name : Name) (next : Place) :
    d.step place name = .ok next ↔ d.node? place = some .directory ∧
      next = if name = ['.'] then place
        else if name = ['.', '.'] then place.tail else name :: place := by
  unfold step
  cases hnode : d.node? place with
  | none => simp only [reduceCtorEq, false_and]
  | some node =>
      cases node with
      | directory =>
          simp only [true_and]
          -- A step is to stay, to go up, or to go to an entry.
          split
          · exact ⟨fun h => (Except.ok.inj h).symm, fun h => congrArg Except.ok h.symm⟩
          · split
            · exact ⟨fun h => (Except.ok.inj h).symm, fun h => congrArg Except.ok h.symm⟩
            · exact ⟨fun h => (Except.ok.inj h).symm, fun h => congrArg Except.ok h.symm⟩
      | file bytes => simp only [reduceCtorEq, Option.some.injEq, false_and]
      | picture image => simp only [reduceCtorEq, Option.some.injEq, false_and]

section

variable {p : Path} {front : List Name} {last : Name} (hnames : p.names = front ++ [last])
include hnames

/-- The last step begins where the steps before it end. -/
theorem resolve_eq (d : Disk) :
    d.resolve p = (front.foldlM d.step (d.origin p)).bind fun place => d.step place last := by
  unfold resolve
  rw [hnames, List.foldlM_append]
  simp only [List.foldlM_cons, List.foldlM_nil, bind_pure]
  rfl

/-- The last step to something that is no directory goes to an entry of a directory, or
    up from one. -/
theorem exists_parent_of_resolve {d : Disk} {place : Place} (hresolve : d.resolve p = .ok place)
    (hfile : d.node? place ≠ some .directory) :
    ∃ parent, front.foldlM d.step (d.origin p) = .ok parent ∧
      d.node? parent = some .directory ∧ last ≠ ['.'] ∧
      place = if last = ['.', '.'] then parent.tail else last :: parent := by
  rw [resolve_eq hnames] at hresolve
  cases hway : front.foldlM d.step (d.origin p) with
  | error e =>
      rw [hway] at hresolve
      exact nomatch hresolve
  | ok parent =>
      rw [hway, Except.bind, step_eq_ok_iff] at hresolve
      rcases hresolve with ⟨hparent, hplace⟩
      -- Staying would end in a directory.
      have hspot : last ≠ ['.'] := by
        intro hdot
        rw [if_pos hdot] at hplace
        rw [hplace] at hfile
        exact hfile hparent
      rw [if_neg hspot] at hplace
      exact ⟨parent, rfl, hparent, hspot, hplace⟩

/-- A name of more than two characters leads to an entry of its directory, whether there
    is one or not. -/
theorem resolve_of_parent {d : Disk} {parent : Place}
    (hway : front.foldlM d.step (d.origin p) = .ok parent)
    (hparent : d.node? parent = some .directory) (hlast : 2 < last.length) :
    d.resolve p = .ok (last :: parent) := by
  -- The names that are steps of their own have one dot or two.
  have hspot : last ≠ ['.'] := by
    intro hdot
    rw [hdot] at hlast
    exact absurd hlast (by decide)
  have hup : last ≠ ['.', '.'] := by
    intro hdots
    rw [hdots] at hlast
    exact absurd hlast (by decide)
  rw [resolve_eq hnames, hway, Except.bind, step_eq_ok_iff, if_neg hspot, if_neg hup]
  exact ⟨hparent, rfl⟩

end

/-- The way to a source ends at its name, and the text that makes the name of a
    picture of it leads to a place beside it. -/
theorem Leads.of_source {d : Disk} {path : String} {place : Place}
    (hjava : isJavaSource path = true) (h : d.Leads path.toList place)
    (hfile : d.node? place ≠ some .directory) :
    ∃ name parent, place = name :: parent ∧ name ≠ [] ∧
      Path.nameExtension? name = some "java".toList ∧
      d.Leads (defaultOutput path).toList ((name ++ ".png".toList) :: parent) := by
  rcases h with ⟨p, hparse, hopen, hresolve⟩
  rcases Path.exists_last_name hparse hopen with ⟨front, last, hnames, hlast, hlonger⟩
  rcases hlonger ".png".toList (by decide) with ⟨q, hq, habsolute, hqnames, hqopen⟩
  rcases exists_parent_of_resolve hnames hresolve hfile with
    ⟨parent, hway, hparent, hspot, hplace⟩
  unfold isJavaSource at hjava
  rw [hparse, Option.bind_some, decide_eq_true_eq, Path.extension?,
    Path.fileName?_of_last hnames hspot] at hjava
  -- A step up has no name and so no extension.
  have hup : last ≠ ['.', '.'] := by
    intro hdots
    rw [if_pos hdots] at hjava
    exact nomatch hjava
  rw [if_neg hup] at hplace hjava
  have horigin : d.origin q = d.origin p := by
    unfold origin
    rw [habsolute]
  have hlength : 2 < (last ++ ".png".toList).length := by
    rw [List.length_append]
    exact Nat.lt_add_left _ (by decide)
  refine ⟨last, parent, hplace, hlast, hjava, q, ?_, hqopen, ?_⟩
  · unfold defaultOutput
    rw [String.toList_append]
    exact hq
  · rw [← horigin] at hway
    exact resolve_of_parent hqnames hway hparent hlength

end Disk

end SourceTexture
