import SourceTexture.Proofs.CommandLine.Effects
import SourceTexture.Proofs.Fragment.Conservation
import SourceTexture.Proofs.Picture.Stacking
import SourceTexture.Proofs.Text.Quoting

/-!
# Reading a dump back

What was printed about some files shows what there was to print.

About each file a block of lines is printed: a heading with its name, a line for
every fragment, and a line about its picture at the end. A name may look like
anything, and so may the text of a fragment, but names are only in headings, and a
fragment begins with the name of its kind. So the end of a block is the first line
that begins with a dash, and behind it the next block begins.

Lines are told apart by their line breaks. Fragments have none, and where the names
have none either nothing is lost: the printed text gives the blocks, the blocks give
the fragments, and the fragments give the text of each file as far as it is kept.

## Main definitions

* `Block`: What is printed about a file.
* `Block.Describes`, `Disk.Shows`: What a block about a file has to tell.
* `Session.ReadsBack`: What a run printed can be read in one way only.

## Theorems

* `SessionM.printed_inj`: Different lines are printed differently.
* `Block.selfDelimiting_lines`: The lines of a block show where it ends.
* `Block.printed_lines_inj`: Different blocks are printed differently.
* `Block.describes_ofFragments`: What a block about a file tells is right.
* `Disk.passes_dump`: Dumping prints a block about every file.
* `Session.dump_reads_back`: A dump can be read back.
-/

namespace SourceTexture

theorem toList_toString (n : Nat) : (toString n).toList = Nat.toDigits 10 n := by
  rw [Nat.toString_eq_repr, Nat.toList_repr]

theorem toDigits_inj {m n : Nat} (h : Nat.toDigits 10 m = Nat.toDigits 10 n) : m = n := by
  rw [← @Nat.ofDigitChars_ten_toDigits m, h, Nat.ofDigitChars_ten_toDigits]

theorem isDigit_of_mem_toDigits {n : Nat} : ∀ c ∈ Nat.toDigits 10 n, c.isDigit = true :=
  fun _ hc => Nat.isDigit_of_mem_toDigits (by decide) (by decide) hc

/-- Lines without a line break in them can be told apart. -/
theorem SessionM.selfDelimiting_line :
    SelfDelimiting (fun line : String => '\n' ∉ line.toList) fun line => line.toList ++ ['\n'] := by
  refine ⟨fun line _ hnil => absurd (List.append_eq_nil_iff.mp hnil).2 (List.cons_ne_nil _ _),
    fun line line' rest rest' hline hline' h => ?_⟩
  rw [List.append_assoc, List.append_assoc] at h
  rcases append_cons_inj_of_not_mem hline hline' h with ⟨htext, hrest⟩
  exact ⟨String.toList_injective htext, hrest⟩

theorem SessionM.printed_inj {lines lines' : List String} (h : ∀ line ∈ lines, '\n' ∉ line.toList)
    (h' : ∀ line ∈ lines', '\n' ∉ line.toList) (heq : printed lines = printed lines') :
    lines = lines' :=
  selfDelimiting_line.flatMap_inj h h' heq

/-- What is printed about a file. -/
@[ext]
structure Block where
  /-- The name of the file. -/
  name : String
  /-- Its fragments. -/
  fragments : List Fragment
  /-- The number of boxes in its picture. -/
  boxes : Nat
  /-- The width of the picture. -/
  width : Extent
  /-- The height of the picture. -/
  height : Extent

namespace Block

/-- The last line of a block. -/
def footer (b : Block) : String :=
  "-- " ++ toString b.boxes ++ " boxes, canvas " ++ sizeText b.width b.height

/-- The lines of a block. -/
def lines (b : Block) : List String :=
  ("== " ++ b.name) :: (b.fragments.map Fragment.display ++ [b.footer])

theorem toList_footer (b : Block) :
    b.footer.toList = "-- ".toList ++ (Nat.toDigits 10 b.boxes ++ ' ' :: ("boxes, canvas ".toList
      ++ (Nat.toDigits 10 b.width.val ++ 'x' :: Nat.toDigits 10 b.height.val))) := by
  unfold footer sizeText
  simp only [String.toList_append, toList_toString, List.append_assoc]
  rfl

/-- The last line of a block shows the numbers in it. -/
theorem footer_inj {a b : Block} (h : a.footer = b.footer) :
    a.boxes = b.boxes ∧ a.width = b.width ∧ a.height = b.height := by
  have hlist := congrArg String.toList h
  rw [toList_footer, toList_footer] at hlist
  -- Every number ends at the first character that is no digit.
  have hnumbers := List.append_cancel_left hlist
  rcases append_cons_inj isDigit_of_mem_toDigits isDigit_of_mem_toDigits (by decide) (by decide)
    hnumbers with ⟨hboxes, -, hcanvas⟩
  rcases append_cons_inj isDigit_of_mem_toDigits isDigit_of_mem_toDigits (by decide) (by decide)
    (List.append_cancel_left hcanvas) with ⟨hwidth, -, hheight⟩
  exact ⟨toDigits_inj hboxes, Extent.ext (toDigits_inj hwidth), Extent.ext (toDigits_inj hheight)⟩

/-- A fragment does not look like the end of a block. -/
theorem head?_display (f : Fragment) : f.display.toList.head? ≠ some '-' := by
  have hname (kind : Kind) : kind.name.toList ≠ [] ∧ kind.name.toList.head? ≠ some '-' := by
    cases kind <;> decide
  rw [Fragment.toList_display, List.head?_append_of_ne_nil _ (hname f.kind).1]
  exact (hname f.kind).2

/-- The lines of a block show what it tells and where it ends. -/
theorem selfDelimiting_lines : SelfDelimiting (fun _ => True) lines := by
  refine ⟨fun b _ => List.cons_ne_nil _ _, fun a b rest rest' _ _ h => ?_⟩
  unfold lines at h
  rw [List.cons_append, List.cons_append, List.append_assoc, List.append_assoc] at h
  rcases List.cons.inj h with ⟨hheading, hbehind⟩
  -- The last line is the first one with a dash in front.
  have hinside (fs : List Fragment) :
      ∀ line ∈ fs.map Fragment.display, line.toList.head? ≠ some '-' := by
    intro line hline
    rcases List.mem_map.mp hline with ⟨f, -, hf⟩
    rw [← hf]
    exact head?_display f
  have hend (b : Block) : ¬ b.footer.toList.head? ≠ some '-' := by
    rw [toList_footer]
    exact fun hne => hne rfl
  rcases append_cons_inj (hinside a.fragments) (hinside b.fragments) (hend a) (hend b) hbehind with
    ⟨hfragments, hfooter, hrest⟩
  have hname : a.name = b.name := by
    have hlist := congrArg String.toList hheading
    rw [String.toList_append, String.toList_append] at hlist
    exact String.toList_injective (List.append_cancel_left hlist)
  have hinjective : Function.Injective Fragment.display := fun _ _ => Fragment.display_inj
  have hsame := (List.map_injective_iff.mpr hinjective) hfragments
  rcases footer_inj hfooter with ⟨hboxes, hwidth, hheight⟩
  exact ⟨Block.ext hname hsame hboxes hwidth hheight, hrest⟩

/-- A block with a name on one line has all its lines on one line each. -/
theorem lineBreak_not_mem_lines {b : Block} (h : '\n' ∉ b.name.toList) :
    ∀ line ∈ b.lines, '\n' ∉ line.toList := by
  have hdigits (n : Nat) : '\n' ∉ Nat.toDigits 10 n := fun hmem =>
    absurd (isDigit_of_mem_toDigits _ hmem) (by decide)
  -- The heading, the fragments and the last line are looked at in turn.
  refine List.forall_mem_cons.mpr ⟨?_, List.forall_mem_append.mpr ⟨fun line hline => ?_,
    List.forall_mem_singleton.mpr ?_⟩⟩
  · rw [String.toList_append]
    exact List.not_mem_append (by decide) h
  · rcases List.mem_map.mp hline with ⟨f, -, hf⟩
    rw [← hf]
    exact f.onOneLine_display.1
  · have hsize : '\n' ∉ Nat.toDigits 10 b.width.val ++ 'x' :: Nat.toDigits 10 b.height.val :=
      List.not_mem_append (hdigits _) (List.not_mem_cons_of_ne_of_not_mem (by decide) (hdigits _))
    rw [toList_footer]
    refine List.not_mem_append (by decide) (List.not_mem_append (hdigits _) ?_)
    exact List.not_mem_cons_of_ne_of_not_mem (by decide) (List.not_mem_append (by decide) hsize)

/-- Blocks with names on one line are printed differently if they are different. -/
theorem printed_lines_inj {blocks others : List Block} (h : ∀ b ∈ blocks, '\n' ∉ b.name.toList)
    (h' : ∀ b ∈ others, '\n' ∉ b.name.toList)
    (heq : SessionM.printed (blocks.flatMap lines) = SessionM.printed (others.flatMap lines)) :
    blocks = others := by
  have hlines {blocks : List Block} (h : ∀ b ∈ blocks, '\n' ∉ b.name.toList) :
      ∀ line ∈ blocks.flatMap lines, '\n' ∉ line.toList := by
    intro line hline
    rcases List.mem_flatMap.mp hline with ⟨b, hb, hline⟩
    exact lineBreak_not_mem_lines (h b hb) line hline
  exact selfDelimiting_lines.flatMap_inj (fun _ _ => trivial) (fun _ _ => trivial)
    (SessionM.printed_inj (hlines h) (hlines h') heq)

/-- What is printed about a file with these fragments. -/
def ofFragments (name : String) (fragments : List Fragment) : Block :=
  let layout := Settings.layoutOf {} fragments
  ⟨name, fragments, layout.boxes.size, layout.width, layout.height⟩

theorem lines_ofFragments (name : String) (fragments : List Fragment) :
    (ofFragments name fragments).lines = Disk.dumpLines name fragments :=
  rfl

/-- A block is about a file that holds these bytes. -/
structure Describes (b : Block) (bytes : List UInt8) : Prop where
  /-- The fragments are those of the file. -/
  fragments : Settings.fragments {} (Utf8.decode bytes) = .ok b.fragments
  /-- Together they are its text, as far as that is kept. -/
  text : b.fragments.flatMap (·.content) = Text.normalize (Utf8.decode bytes)
  /-- The boxes are counted by the fragments that are no line breaks. -/
  boxes : b.boxes = b.fragments.countP (·.kind ≠ .lineFeed)
  /-- The layout of the file has as many boxes, and the size that is printed. -/
  layout : ∃ l, Settings.layoutOfBytes {} bytes = .ok l ∧ l.boxes.size = b.boxes ∧
    l.width = b.width ∧ l.height = b.height

/-- What is printed about a file is right. -/
theorem describes_ofFragments (name : String) {bytes : List UInt8} {fragments : List Fragment}
    (h : Settings.fragments {} (Utf8.decode bytes) = .ok fragments) :
    (ofFragments name fragments).Describes bytes := by
  refine ⟨h, Settings.flatMap_content_fragments {} _ h, ?_, _, Settings.layout_eq {} _ h, rfl, rfl,
    rfl⟩
  show (Settings.layoutOf {} fragments).boxes.size = fragments.countP (·.kind ≠ .lineFeed)
  rw [← Array.length_toList, Settings.boxes_layoutOf, List.length_map, Fragment.length_spots]

end Block

namespace Disk

/-- A block is about a file on a disk. -/
def Shows (d : Disk) (input : String) (b : Block) : Prop :=
  b.name = input ∧ ∃ bytes, d.read input.toList = .ok bytes ∧ b.Describes bytes

/-- Dumping a file that can be read prints a block about it. -/
theorem pass_dump {i : Invocation} (hdump : i.command = .dump) {d : Disk} {input : String}
    {bytes : List UInt8} (hread : d.read input.toList = .ok bytes) :
    ∃ b, d.pass i input = (true, ⟨d, b.lines⟩) ∧ d.Shows input b := by
  have hfragments := Settings.fragments_eq {} (Utf8.decode bytes)
  refine ⟨_, ?_, rfl, bytes, hread, Block.describes_ofFragments input hfragments⟩
  rw [Block.lines_ofFragments]
  unfold pass handle dump
  simp only [hdump, hread, hfragments]

/-- Dumping files that can be read prints a block about each. -/
theorem passes_dump {i : Invocation} (hdump : i.command = .dump) {d : Disk} {inputs : List String}
    (hread : ∀ f ∈ inputs, ∃ bytes, d.read f.toList = .ok bytes) :
    ∃ blocks : List Block, (d.passes i inputs).2.lines = blocks.flatMap Block.lines ∧
      List.Forall₂ d.Shows inputs blocks := by
  induction inputs with
  | nil => exact ⟨[], rfl, .nil⟩
  | cons input inputs ih =>
      rcases List.forall_mem_cons.mp hread with ⟨⟨bytes, hinput⟩, hinputs⟩
      -- Dumping leaves the disk as it was, so the other files can still be read.
      rcases pass_dump hdump hinput with ⟨b, hpass, hshows⟩
      rcases ih hinputs with ⟨blocks, hlines, hall⟩
      refine ⟨b :: blocks, ?_, .cons hshows hall⟩
      simp only [passes, hpass, hlines, List.flatMap_cons]

end Disk

namespace Session

/-- What a run printed about some files can be read as blocks of lines, and in no other
    way. -/
structure ReadsBack (s : Session) (t : Threshold) (args files : List String)
    (blocks : List Block) : Prop where
  /-- The blocks were printed one after the other. -/
  results : (s.run t args).2.results
    = s.results ++ String.ofList (SessionM.printed (blocks.flatMap Block.lines))
  /-- No other blocks with names on one line look the same. -/
  unique : ∀ others : List Block, (∀ b ∈ others, '\n' ∉ b.name.toList) →
    (s.run t args).2.results
      = s.results ++ String.ofList (SessionM.printed (others.flatMap Block.lines)) →
    others = blocks
  /-- They are about the files, in order. -/
  files : List.Forall₂ s.disk.Shows files blocks

/-- A dump of files with names on one line, all of which can be read, is read back in
    one way only. -/
theorem readsBack_of_asks (s : Session) (t : Threshold) {args files : List String}
    {output : Option String} (hasks : Asks args ⟨.dump, files, output⟩) (hused : ¬ Misused args)
    (hfiles : ∀ f ∈ files, '\n' ∉ f.toList ∧ ∃ bytes, s.disk.read f.toList = .ok bytes) :
    ∃ blocks, s.ReadsBack t args files blocks := by
  rcases s.run_of_parse t (Invocation.parse_of_asks hasks hused) with ⟨notes, hrun⟩
  have hdump : (⟨.dump, files, output⟩ : Invocation).command = .dump := rfl
  rcases Disk.passes_dump hdump fun f hf => (hfiles f hf).2 with ⟨blocks, hlines, hall⟩
  have hresults : (s.run t args).2.results
      = s.results ++ String.ofList (SessionM.printed (blocks.flatMap Block.lines)) := by
    rw [hrun, ← hlines]
    rfl
  -- The blocks have the names of the files, so these names are on one line too.
  have hnames : ∀ b ∈ blocks, '\n' ∉ b.name.toList := by
    have heq : blocks.map Block.name = files := by
      rw [← List.forall₂_eq_eq_eq, List.forall₂_map_left_iff]
      exact (hall.imp fun _ _ hshows => hshows.1).flip
    intro b hb
    refine (hfiles b.name ?_).1
    rw [← heq]
    exact List.mem_map_of_mem hb
  refine ⟨blocks, hresults, fun others hothers hsame => ?_, hall⟩
  rw [hresults] at hsame
  have hprinted := congrArg String.toList hsame
  rw [String.toList_append, String.toList_append, String.toList_ofList, String.toList_ofList]
    at hprinted
  exact (Block.printed_lines_inj hnames hothers (List.append_cancel_left hprinted)).symm

/-- A dump can be read back: a line shows its fragment, and the lines show the files,
    if these can be read and have their names on one line. -/
theorem dump_reads_back :
    (∀ f g : Fragment, f.display = g.display → f = g) ∧
      (∀ f : Fragment, OnOneLine f.display.toList) ∧
      ∀ (s : Session) (t : Threshold) (args files : List String) (output : Option String),
        Asks args ⟨.dump, files, output⟩ → ¬ Misused args →
        (∀ f ∈ files, '\n' ∉ f.toList ∧ ∃ bytes, s.disk.read f.toList = .ok bytes) →
        ∃ blocks, s.ReadsBack t args files blocks :=
  ⟨fun _ _ => Fragment.display_inj, Fragment.onOneLine_display,
    fun s t _ _ _ hasks hused hfiles => s.readsBack_of_asks t hasks hused hfiles⟩

/-- A file that looks like the beginning of a block, and one with a quote in it. -/
def lookalike : Session where
  disk :=
    { nodes := [(["A".toList], .file [61, 61, 32, 66, 10]), (["B".toList], .file [34, 92, 10])] }

/-- A line in a file that looks like a heading does not get in the way. -/
theorem dump_reads_back_lookalike :
    Asks ["dump", "A", "B"] ⟨.dump, ["A", "B"], none⟩ ∧ ¬ Misused ["dump", "A", "B"] ∧
      (∀ f ∈ ["A", "B"], '\n' ∉ f.toList ∧ ∃ bytes, lookalike.disk.read f.toList = .ok bytes) ∧
      ∃ blocks, lookalike.ReadsBack none ["dump", "A", "B"] ["A", "B"] blocks := by
  have hasks : Asks ["dump", "A", "B"] ⟨.dump, ["A", "B"], none⟩ :=
    .intro .dump (Arguments.reads_of_plain (by decide))
  have hused : ¬ Misused ["dump", "A", "B"] := by
    intro hmisused
    rcases Invocation.parse_of_misused hmisused with ⟨e, herror⟩
    exact nomatch herror
  have hfiles : ∀ f ∈ ["A", "B"], '\n' ∉ f.toList ∧
      ∃ bytes, lookalike.disk.read f.toList = .ok bytes := by
    refine List.forall_mem_cons.mpr ⟨⟨by decide, _, rfl⟩, List.forall_mem_singleton.mpr ?_⟩
    exact ⟨by decide, _, rfl⟩
  exact ⟨hasks, hused, hfiles, dump_reads_back.2.2 lookalike none _ _ none hasks hused hfiles⟩

end Session

end SourceTexture
