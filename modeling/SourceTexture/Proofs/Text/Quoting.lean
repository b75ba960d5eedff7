import SourceTexture.Fragment.Basic
import Mathlib.Data.List.Basic

/-!
# Reading quoted text

Printed text shows what was printed.

The argument is the same for the characters in a quoted text, the lines in a printed
text and the blocks that lines make up. Whatever is written behind a thing, what was
written for the thing itself can be told from it, and so the things written one after
the other can be told from the whole. This is said once, of any way to write things.

For the characters it is shown by reading them. A backslash announces an escape, the
character behind it says which one, and the digits in braces end at the closing brace
and give the number back.

## Main definitions

* `SelfDelimiting`: What is written shows where it ends.
* `OnOneLine`: A text stays on the line it begins on.
* `Quoted.numberOf`: The number spelled by hexadecimal digits.
* `Quoted.unescape?`: The character that is written at the front of a text.

## Theorems

* `SelfDelimiting.flatMap_inj`: Things written one after the other can be told apart.
* `Quoted.unescape?_escape`: Reading a character that was written.
* `quoted_inj`: Different texts are quoted differently.
* `Fragment.display_inj`: Different fragments are printed differently.
* `Fragment.onOneLine_display`: A printed fragment stays on its line.
-/

namespace SourceTexture

section

variable {α β : Type}

/-- A way to write things of some sort so that what is written for one of them shows
    the thing and where it ends, whatever stands behind it. -/
structure SelfDelimiting (legal : α → Prop) (write : α → List β) : Prop where
  /-- Something is written. -/
  ne_nil : ∀ a, legal a → write a ≠ []
  /-- Only one thing can be written at the front of a text. -/
  front : ∀ a b rest rest', legal a → legal b → write a ++ rest = write b ++ rest' →
    a = b ∧ rest = rest'

/-- What is written for several things shows them all. -/
theorem SelfDelimiting.flatMap_inj {legal : α → Prop} {write : α → List β}
    (h : SelfDelimiting legal write) {as bs : List α} (has : ∀ a ∈ as, legal a)
    (hbs : ∀ b ∈ bs, legal b) (heq : as.flatMap write = bs.flatMap write) : as = bs := by
  induction as generalizing bs with
  | nil =>
      cases bs with
      | nil => rfl
      | cons b bs =>
          rw [List.flatMap_nil, List.flatMap_cons] at heq
          have hnil := (List.append_eq_nil_iff.mp heq.symm).1
          exact absurd hnil (h.ne_nil b (hbs b List.mem_cons_self))
  | cons a as ih =>
      rcases List.forall_mem_cons.mp has with ⟨ha, has⟩
      cases bs with
      | nil =>
          rw [List.flatMap_nil, List.flatMap_cons] at heq
          exact absurd (List.append_eq_nil_iff.mp heq).1 (h.ne_nil a ha)
      | cons b bs =>
          rcases List.forall_mem_cons.mp hbs with ⟨hb, hbs⟩
          -- The first things agree, so the others are what is written behind them.
          rw [List.flatMap_cons, List.flatMap_cons] at heq
          rcases h.front a b _ _ ha hb heq with ⟨hab, hrest⟩
          rw [hab, ih has hbs hrest]

/-- What stands before the first thing that ends it can be told from what follows. -/
theorem append_cons_inj {inside : α → Prop} {front front' back back' : List α} {stop stop' : α}
    (hfront : ∀ a ∈ front, inside a) (hfront' : ∀ a ∈ front', inside a)
    (hstop : ¬ inside stop) (hstop' : ¬ inside stop')
    (h : front ++ stop :: back = front' ++ stop' :: back') :
    front = front' ∧ stop = stop' ∧ back = back' := by
  -- If one front were longer, what ends the other would be inside of it.
  induction front generalizing front' with
  | nil =>
      cases front' with
      | nil => exact ⟨rfl, List.cons.inj h⟩
      | cons a front' =>
          have ha : stop = a := (List.cons.inj h).1
          rw [ha] at hstop
          exact absurd (hfront' a List.mem_cons_self) hstop
  | cons a front ih =>
      rcases List.forall_mem_cons.mp hfront with ⟨ha, hfront⟩
      cases front' with
      | nil =>
          have hb : a = stop' := (List.cons.inj h).1
          rw [hb] at ha
          exact absurd ha hstop'
      | cons b front' =>
          rcases List.cons.inj h with ⟨hab, hrest⟩
          rcases ih hfront (List.forall_mem_cons.mp hfront').2 hrest with ⟨hfronts, hbehind⟩
          rw [hab, hfronts]
          exact ⟨rfl, hbehind⟩

/-- A character that stands in neither of two fronts ends both of them in the same
    place. -/
theorem append_cons_inj_of_not_mem {front front' back back' : List α} {stop : α}
    (hfront : stop ∉ front) (hfront' : stop ∉ front')
    (h : front ++ stop :: back = front' ++ stop :: back') : front = front' ∧ back = back' := by
  have hinside {text : List α} (htext : stop ∉ text) : ∀ a ∈ text, a ≠ stop :=
    fun _ ha => ne_of_mem_of_not_mem ha htext
  rcases append_cons_inj (hinside hfront) (hinside hfront') (fun hne => hne rfl)
    (fun hne => hne rfl) h with ⟨hfronts, -, hbacks⟩
  exact ⟨hfronts, hbacks⟩

end

/-- Whether a text stays on the line it begins on. -/
abbrev OnOneLine (text : List Char) : Prop :=
  '\n' ∉ text ∧ '\r' ∉ text

theorem OnOneLine.append {front back : List Char} (h : OnOneLine front) (h' : OnOneLine back) :
    OnOneLine (front ++ back) :=
  ⟨List.not_mem_append h.1 h'.1, List.not_mem_append h.2 h'.2⟩

namespace Quoted

/-- The number a hexadecimal digit stands for. -/
def digitOf (c : Char) : Nat :=
  if c.isDigit then c.toNat - '0'.toNat else c.toNat - 'a'.toNat + 10

/-- The number spelled by hexadecimal digits. -/
def numberOf (digits : List Char) : Nat :=
  digits.foldl (fun n c => n * 16 + digitOf c) 0

theorem hexDigits_eq (n : Nat) :
    hexDigits n = if n < 16 then [Nat.digitChar n]
      else hexDigits (n / 16) ++ [Nat.digitChar (n % 16)] :=
  Nat.toDigits_eq_if (by decide)

/-- The digits of a number are those below sixteen, as the induction on its quotients
    shows. -/
theorem mem_hexDigits {n : Nat} {c : Char} (h : c ∈ hexDigits n) :
    ∃ d < 16, c = Nat.digitChar d := by
  induction n using Nat.strongRecOn with
  | ind n ih =>
      rw [hexDigits_eq] at h
      by_cases hn : n < 16
      · rw [if_pos hn] at h
        exact ⟨n, hn, List.mem_singleton.mp h⟩
      · rw [if_neg hn] at h
        -- The last digit is a remainder, and the others are the digits of the quotient.
        rcases List.mem_append.mp h with h | h
        · exact ih (n / 16) (by omega) h
        · exact ⟨n % 16, by omega, List.mem_singleton.mp h⟩

/-- The digits of a number spell it. -/
theorem numberOf_hexDigits (n : Nat) : numberOf (hexDigits n) = n := by
  have hdigit : ∀ d < 16, digitOf (Nat.digitChar d) = d := by decide
  induction n using Nat.strongRecOn with
  | ind n ih =>
      rw [hexDigits_eq]
      by_cases hn : n < 16
      · rw [if_pos hn, numberOf, List.foldl_cons, List.foldl_nil, hdigit n hn]
        omega
      · have hfront : numberOf (hexDigits (n / 16)) = n / 16 := ih (n / 16) (by omega)
        -- Reading the last digit goes on from the number that those in front spell.
        unfold numberOf at hfront
        rw [if_neg hn, numberOf, List.foldl_append, hfront, List.foldl_cons, List.foldl_nil,
          hdigit (n % 16) (by omega)]
        omega

/-- The character with a short escape of this name. -/
def shortEscape? : Char → Option Char
  | '0' => some '\x00'
  | 't' => some '\t'
  | 'r' => some '\r'
  | 'n' => some '\n'
  | '\\' => some '\\'
  | '"' => some '"'
  | _ => none

/-- The character that an escape stands for, and the text behind the escape. The
    backslash has been read already. -/
def escaped? : List Char → Option (Char × List Char)
  | [] => none
  | c :: rest =>
    if c = 'u' then
      some (Char.ofNat (numberOf (rest.takeWhile (· ≠ '}')).tail), (rest.dropWhile (· ≠ '}')).tail)
    else (shortEscape? c).map (·, rest)

/-- The character that is written at the front of a text, and the text behind. -/
def unescape? : List Char → Option (Char × List Char)
  | [] => none
  | c :: rest => if c = '\\' then escaped? rest else some (c, rest)

/-- A code point in braces is read back, and what stands behind the braces is left. -/
theorem escaped?_hexDigits (c : Char) (rest : List Char) :
    escaped? ('u' :: '{' :: (hexDigits c.toNat ++ '}' :: rest)) = some (c, rest) := by
  -- No digit is the brace that ends the escape.
  have hdigit : ∀ d < 16, Nat.digitChar d ≠ '}' := by decide
  have hinside : ∀ b ∈ '{' :: hexDigits c.toNat, decide (b ≠ '}') = true := by
    refine List.forall_mem_cons.mpr ⟨rfl, fun b hb => ?_⟩
    rcases mem_hexDigits hb with ⟨d, hd, hb⟩
    rw [hb]
    exact decide_eq_true (hdigit d hd)
  rw [escaped?, if_pos rfl, ← List.cons_append, List.takeWhile_append_of_pos hinside,
    List.dropWhile_append_of_pos hinside]
  simp only [ne_eq, not_true_eq_false, decide_false, Bool.false_eq_true, not_false_eq_true,
    List.takeWhile_cons_of_neg, List.append_nil, List.tail_cons, numberOf_hexDigits,
    Char.ofNat_toNat, List.dropWhile_cons_of_neg]

/-- The three ways to write a character. -/
theorem escape_cases (c : Char) :
    (∃ name, shortEscape? name = some c ∧ escape c = ['\\', name]) ∨
      escape c = '\\' :: 'u' :: '{' :: (hexDigits c.toNat ++ ['}']) ∨
      c ≠ '\\' ∧ c ≠ '\n' ∧ c ≠ '\r' ∧ escape c = [c] := by
  unfold escape
  -- Six characters have a short escape, and they are asked for first.
  split
  · exact Or.inl ⟨'0', rfl, rfl⟩
  · exact Or.inl ⟨'t', rfl, rfl⟩
  · exact Or.inl ⟨'r', rfl, rfl⟩
  · exact Or.inl ⟨'n', rfl, rfl⟩
  · exact Or.inl ⟨'\\', rfl, rfl⟩
  · exact Or.inl ⟨'"', rfl, rfl⟩
  · next _ _ hreturn hbreak hbackslash _ =>
      split
      · exact Or.inr (Or.inl rfl)
      · exact Or.inr (Or.inr ⟨hbackslash, hbreak, hreturn, rfl⟩)

/-- Reading a character that was written gives the character back, and what stands
    behind it. -/
theorem unescape?_escape (c : Char) (rest : List Char) :
    unescape? (escape c ++ rest) = some (c, rest) := by
  rcases escape_cases c with ⟨name, hname, hescape⟩ | hescape | ⟨hbackslash, -, -, hescape⟩
  · -- The name of a short escape does not announce a code point.
    have hcode : name ≠ 'u' := by
      intro hu
      rw [hu] at hname
      exact nomatch hname
    rw [hescape, List.cons_append, List.singleton_append, unescape?, if_pos rfl, escaped?,
      if_neg hcode, hname, Option.map_some]
  · rw [hescape, List.cons_append, List.cons_append, List.cons_append, List.append_assoc,
      unescape?, if_pos rfl]
    exact escaped?_hexDigits c rest
  · rw [hescape, List.singleton_append, unescape?, if_neg hbackslash]

/-- What is written for a character shows its own end. The reader says so, because it
    finds the character and leaves what stands behind. -/
theorem selfDelimiting_escape : SelfDelimiting (fun _ => True) escape := by
  refine ⟨fun c _ hnil => ?_, fun c d rest rest' _ _ h => ?_⟩
  · have hread := unescape?_escape c []
    rw [hnil] at hread
    exact nomatch hread
  · -- Whoever reads the escaped text back gets the character and the rest.
    have hread := unescape?_escape c rest
    rw [h, unescape?_escape, Option.some.injEq, Prod.mk.injEq] at hread
    exact ⟨hread.1.symm, hread.2.symm⟩

/-- No digit breaks a line. -/
theorem onOneLine_hexDigits (n : Nat) : OnOneLine (hexDigits n) := by
  have hdigit : ∀ d < 16, '\n' ≠ Nat.digitChar d ∧ '\r' ≠ Nat.digitChar d := by decide
  refine ⟨fun hmem => ?_, fun hmem => ?_⟩
  · rcases mem_hexDigits hmem with ⟨d, hd, heq⟩
    exact (hdigit d hd).1 heq
  · rcases mem_hexDigits hmem with ⟨d, hd, heq⟩
    exact (hdigit d hd).2 heq

/-- What is written for a character does not break the line. -/
theorem onOneLine_escape (c : Char) : OnOneLine (escape c) := by
  rcases escape_cases c with ⟨name, hname, hescape⟩ | hescape | ⟨-, hbreak, hreturn, hescape⟩
  · -- No line break is the name of a short escape.
    have hplain : OnOneLine [name] := by
      refine ⟨fun hmem => ?_, fun hmem => ?_⟩
      · rw [← List.mem_singleton.mp hmem] at hname
        exact nomatch hname
      · rw [← List.mem_singleton.mp hmem] at hname
        exact nomatch hname
    have hfront : OnOneLine ['\\'] := by decide
    rw [hescape]
    exact hfront.append hplain
  · have hfront : OnOneLine ['\\', 'u', '{'] := by decide
    have hback : OnOneLine ['}'] := by decide
    rw [hescape]
    exact hfront.append ((onOneLine_hexDigits c.toNat).append hback)
  · rw [hescape]
    exact ⟨fun hmem => hbreak (List.mem_singleton.mp hmem).symm,
      fun hmem => hreturn (List.mem_singleton.mp hmem).symm⟩

end Quoted

/-- Different texts are quoted differently. -/
theorem quoted_inj {text text' : List Char} (h : quoted text = quoted text') : text = text' := by
  have hinside := List.append_cancel_right (List.cons.inj h).2
  exact Quoted.selfDelimiting_escape.flatMap_inj (fun _ _ => trivial) (fun _ _ => trivial) hinside

namespace Fragment

/-- A printed fragment, piece by piece. -/
theorem toList_display (f : Fragment) :
    f.display.toList = f.kind.name.toList ++ '(' :: (quoted f.content ++ [')']) := by
  unfold display
  simp only [String.toList_append, String.toList_ofList, List.append_assoc]
  rfl

/-- Different fragments are printed differently. -/
theorem display_inj {f g : Fragment} (h : f.display = g.display) : f = g := by
  have hname (kind : Kind) : '(' ∉ kind.name.toList := by
    cases kind <;> decide
  -- The name of the kind ends at the first bracket.
  have hlist := congrArg String.toList h
  rw [toList_display, toList_display] at hlist
  rcases append_cons_inj_of_not_mem (hname f.kind) (hname g.kind) hlist with ⟨hnames, hrest⟩
  have hkind := Kind.name_injective f.kind g.kind (String.toList_injective hnames)
  exact Fragment.ext hkind (quoted_inj (List.append_cancel_right hrest))

/-- A printed fragment stays on its line. -/
theorem onOneLine_display (f : Fragment) : OnOneLine f.display.toList := by
  -- The line is put together from the name, the brackets and the quoted content.
  have hname : OnOneLine f.kind.name.toList := by
    cases f.kind <;> decide
  have hcontent : OnOneLine (f.content.flatMap Quoted.escape) := by
    refine ⟨fun hmem => ?_, fun hmem => ?_⟩
    · rcases List.mem_flatMap.mp hmem with ⟨c, -, hc⟩
      exact (Quoted.onOneLine_escape c).1 hc
    · rcases List.mem_flatMap.mp hmem with ⟨c, -, hc⟩
      exact (Quoted.onOneLine_escape c).2 hc
  have hfront : OnOneLine ['(', '"'] := by decide
  have hback : OnOneLine ['"', ')'] := by decide
  rw [toList_display, quoted, List.append_assoc]
  exact hname.append (hfront.append (hcontent.append hback))

end Fragment

end SourceTexture
