import SourceTexture.Proofs.Fragment.Spelling

/-!
# Rules without an order

What the kind of a text is, told without trying one rule after the other.

The rules for undefined text are tried in a fixed order, which would matter for any
text that two of them fit. Hardly any text is like that. A rule is known by the
characters that its texts may begin with: a blank, a sign, a letter or an
underscore, a digit of a number, an at sign. Only letters occur twice, as the
beginning of a word and as hexadecimal digits, so the rules for words and for
numbers are the only ones that may fit the same text. Words come first. What is
left for numbers begins with a decimal digit, for such a text is no word.

With that in mind each kind has a condition of its own, which does not mention the
other rules, and every text meets the condition of one kind and of no other. The
vocabulary takes part in the three conditions of words alone, and only by the words
in it.

A line break stands in no text that is blank, a sign, a word or a number. The rule
for annotations is different, as it looks at the first character only.

## Main definitions

* `SpellingRule`: The five rules.
* `SpellingRule.Fits`: A rule fits a text.
* `SpellingRule.begins`: A text of a rule may begin with a character.
* `Vocabulary.Means`: A text is of a kind, told by its spelling alone.

## Theorems

* `SpellingRule.check_iff`: What the rules accept.
* `SpellingRule.overlap`: Only the rules for words and for numbers overlap.
* `SpellingRule.eq_atWord_of_mem`: Text with a line break fits no rule but that for
  annotations.
* `Vocabulary.kindOf_eq_iff`: The kind of a text is the one it means.
* `Vocabulary.kindOf_congr`: Only the words of a vocabulary matter.
* `Vocabulary.spelling_decides`: All of this at once.
* `Vocabulary.kindOf_with_lineBreak`: An annotation that ends in a line break.
-/

namespace SourceTexture

/-- The rules that settle the kind of undefined text. -/
inductive SpellingRule where
  /-- A run of blanks. -/
  | blanks
  /-- A single sign. -/
  | sign
  /-- A word. -/
  | word
  /-- A number. -/
  | number
  /-- An at sign and anything behind it. -/
  | atWord
  deriving DecidableEq

namespace SpellingRule

/-- Whether a rule fits a text, as it is tried. -/
def check : SpellingRule → List Char → Bool
  | blanks => isBlankRun
  | sign => isSymbol
  | word => isWord
  | number => isNumeral
  | atWord => isAtWord

/-- Whether a rule fits a text, told without a procedure. -/
def Fits (text : List Char) : SpellingRule → Prop
  | blanks => text ≠ [] ∧ ∀ c ∈ text, c = ' ' ∨ c = '\t'
  | sign => ∃ c ∈ symbols, text = [c]
  | word => IsName text
  | number => ∃ c digits mark, text = c :: digits ++ mark ∧ isNumeralDigit c = true ∧
      (∀ d ∈ digits, isNumeralDigit d = true) ∧ IsLongMark mark
  | atWord => text.head? = some '@'

/-- Whether text that a rule fits may begin with the character. -/
def begins : SpellingRule → Char → Bool
  | blanks => Text.isBlank
  | sign => symbols.contains
  | word => isWordStart
  | number => isNumeralDigit
  | atWord => (· = '@')

theorem isBlankRun_iff (text : List Char) :
    isBlankRun text = true ↔ text ≠ [] ∧ ∀ c ∈ text, c = ' ' ∨ c = '\t' := by
  rw [isBlankRun, Bool.and_eq_true, decide_eq_true_eq, List.all_eq_true]
  simp only [Text.isBlank_iff]

/-- A sign is a text of a single character, which is in the table of signs. -/
theorem isSymbol_iff (text : List Char) : isSymbol text = true ↔ ∃ c ∈ symbols, text = [c] := by
  constructor
  · intro h
    match text with
    | [] => exact Bool.noConfusion h
    | [c] => exact ⟨c, List.contains_iff_mem.mp h, rfl⟩
    | _ :: _ :: _ => exact Bool.noConfusion h
  · rintro ⟨c, hc, rfl⟩
    exact List.contains_iff_mem.mpr hc

theorem isAtWord_iff (text : List Char) : isAtWord text = true ↔ text.head? = some '@' := by
  cases text with
  | nil => exact ⟨fun h => Bool.noConfusion h, fun h => by cases h⟩
  | cons c text => rw [isAtWord, decide_eq_true_eq, List.head?_cons, Option.some.injEq]

/-- What a rule accepts as it is tried is what fits it. -/
theorem check_iff (r : SpellingRule) (text : List Char) : r.check text = true ↔ r.Fits text := by
  cases r with
  | blanks => exact isBlankRun_iff text
  | sign => exact isSymbol_iff text
  | word => exact isWord_iff text
  | number => exact isNumeral_iff text
  | atWord => exact isAtWord_iff text

/-- Text that a rule fits begins as the rule says. -/
theorem exists_begins {r : SpellingRule} {text : List Char} (h : r.Fits text) :
    ∃ c, text.head? = some c ∧ r.begins c = true := by
  -- A text that fits is never empty, and each rule names the class of its first character.
  cases r with
  | blanks =>
      rcases List.exists_cons_of_ne_nil h.1 with ⟨c, cs, rfl⟩
      exact ⟨c, rfl, (Text.isBlank_iff c).mpr (h.2 c List.mem_cons_self)⟩
  | sign =>
      rcases h with ⟨c, hc, rfl⟩
      exact ⟨c, rfl, List.contains_iff_mem.mpr hc⟩
  | word =>
      rcases h with ⟨c, cs, rfl, hc, -⟩
      exact ⟨c, rfl, (isWordStart_iff c).mpr hc⟩
  | number =>
      rcases h with ⟨c, digits, mark, rfl, hc, -⟩
      exact ⟨c, rfl, hc⟩
  | atWord => exact ⟨'@', h, rfl⟩

/-- Where two rules have a character in common to begin with, they are those for words
    and for numbers. -/
theorem eq_word_or_eq_number {r r' : SpellingRule} {c : Char} (h : r.begins c = true)
    (h' : r'.begins c = true) (hne : r' ≠ r) : r = .word ∨ r = .number := by
  -- The other rules have few characters, and no second rule has one of them.
  cases r with
  | blanks =>
      rcases (Text.isBlank_iff c).mp h with rfl | rfl
      · revert h' hne
        cases r' <;> decide
      · revert h' hne
        cases r' <;> decide
  | sign =>
      have hnone : r' ≠ sign → symbols.any r'.begins = false := by
        cases r' <;> decide
      have hany : symbols.any r'.begins = true :=
        List.any_eq_true.mpr ⟨c, List.contains_iff_mem.mp h, h'⟩
      rw [hnone hne] at hany
      exact Bool.noConfusion hany
  | word => exact Or.inl rfl
  | number => exact Or.inr rfl
  | atWord =>
      rw [decide_eq_true_eq.mp h] at h'
      revert h' hne
      cases r' <;> decide

/-- Of two rules that fit the same text one is that for words and the other that for
    numbers. -/
theorem overlap {r r' : SpellingRule} {text : List Char} (h : r.Fits text) (h' : r'.Fits text)
    (hne : r ≠ r') : r = .word ∧ r' = .number ∨ r = .number ∧ r' = .word := by
  rcases exists_begins h with ⟨c, hc, hbegins⟩
  rcases exists_begins h' with ⟨d, hd, hbegins'⟩
  rw [hc, Option.some.injEq] at hd
  rw [← hd] at hbegins'
  -- The two rules are different, so each of the two names is taken once.
  rcases eq_word_or_eq_number hbegins hbegins' hne.symm with hr | hr <;>
    rcases eq_word_or_eq_number hbegins' hbegins hne with hr' | hr'
  · exact absurd (hr.trans hr'.symm) hne
  · exact Or.inl ⟨hr, hr'⟩
  · exact Or.inr ⟨hr, hr'⟩
  · exact absurd (hr.trans hr'.symm) hne

/-- A line break stands in no text but that of an annotation. -/
theorem eq_atWord_of_mem {r : SpellingRule} {text : List Char} (h : r.Fits text)
    (hbreak : '\n' ∈ text) : r = .atWord := by
  -- A line break is in none of the classes that the first four rules are made of.
  cases r with
  | blanks =>
      have hblank := h.2 '\n' hbreak
      exact absurd hblank (by decide)
  | sign =>
      rcases h with ⟨c, hc, rfl⟩
      rw [← List.mem_singleton.mp hbreak] at hc
      exact absurd hc (by decide)
  | word =>
      rcases h with ⟨c, cs, rfl, hc, hcs⟩
      rcases List.mem_cons.mp hbreak with heq | hmem
      · rw [← heq] at hc
        exact absurd hc (by decide)
      · exact absurd (hcs '\n' hmem) (by decide)
  | number =>
      rcases h with ⟨c, digits, mark, rfl, hc, hdigits, hmark⟩
      rcases List.mem_append.mp hbreak with hmem | hmem
      · have hall : ∀ d ∈ c :: digits, isNumeralDigit d = true :=
          List.forall_mem_cons.mpr ⟨hc, hdigits⟩
        exact absurd (hall '\n' hmem) (by decide)
      · rcases hmark with rfl | rfl | rfl <;> exact absurd hmem (by decide)
  | atWord => rfl

end SpellingRule

/-- No word begins with a decimal digit. -/
theorem not_isWordStart_of_isDigit {c : Char} (h : c.isDigit = true) :
    ¬ isWordStart c = true := by
  -- All digits are in front of all letters.
  have hlast : c ≤ '9' := of_decide_eq_true (Bool.and_eq_true_iff.mp h).2
  rw [isWordStart_iff]
  rintro (halpha | rfl)
  · rcases Bool.or_eq_true_iff.mp halpha with hupper | hlower
    · have hfirst : 'A' ≤ c := (of_decide_eq_true hupper).1
      exact absurd (Char.le_trans hfirst hlast) (by decide)
    · have hfirst : 'a' ≤ c := of_decide_eq_true (Bool.and_eq_true_iff.mp hlower).1
      exact absurd (Char.le_trans hfirst hlast) (by decide)
  · exact absurd h (by decide)

/-- A number is no word, although what follows its first digit may be one. -/
theorem IsNumber.not_isName {text : List Char} (h : IsNumber text) : ¬ IsName text := by
  rcases h with ⟨c, digits, mark, rfl, hc, -⟩
  rintro ⟨d, ds, heq, hd, -⟩
  rw [← (List.cons.inj heq).1, ← isWordStart_iff] at hd
  exact not_isWordStart_of_isDigit hc hd

/-- A number fits the rule for numbers, as a decimal digit is a digit of a number. -/
theorem IsNumber.fits {text : List Char} (h : IsNumber text) : SpellingRule.number.Fits text := by
  rcases h with ⟨c, digits, mark, htext, hc, hdigits, hmark⟩
  refine ⟨c, digits, mark, htext, ?_, hdigits, hmark⟩
  rw [isNumeralDigit, hc, Bool.true_or, Bool.true_or, Bool.true_or]

namespace Vocabulary

open SpellingRule

/-- Whether a text is of a kind, told by its spelling and the vocabulary alone. No
    condition presumes that another one fails, but for the kind of text that fits no
    rule. -/
def Means (v : Vocabulary) (text : List Char) : Kind → Prop
  | .space => text ≠ [] ∧ ∀ c ∈ text, c = ' ' ∨ c = '\t'
  | .symbol => ∃ c ∈ symbols, text = [c]
  | .keyword => IsName text ∧ String.ofList text ∈ v.keywords
  | .datatype => IsName text ∧ String.ofList text ∈ v.datatypes ∧
      String.ofList text ∉ v.keywords
  | .identifier => IsName text ∧ String.ofList text ∉ v.keywords ∧
      String.ofList text ∉ v.datatypes
  | .numeric => IsNumber text
  | .atWord => text.head? = some '@'
  | .undefined => ∀ r : SpellingRule, ¬ r.Fits text
  | .lineComment | .blockComment | .stringLiteral | .characterLiteral | .delimiter
  | .lineFeed => False

/-- The rules in the order in which they are tried. -/
theorem kindOf_eq (v : Vocabulary) (text : List Char) :
    v.kindOf text =
      if blanks.check text then .space
      else if sign.check text then .symbol
      else if word.check text then v.kindOfWord text
      else if number.check text then .numeric
      else if SpellingRule.atWord.check text then .atWord
      else .undefined := rfl

/-- The kind that is found is one that the text means. -/
theorem means_kindOf (v : Vocabulary) (text : List Char) : v.Means text (v.kindOf text) := by
  rw [kindOf_eq]
  split_ifs with hblanks hsign hword hnumber hat
  · exact (check_iff _ text).mp hblanks
  · exact (check_iff _ text).mp hsign
  · have hname : IsName text := (check_iff _ text).mp hword
    rw [kindOfWord]
    split_ifs with hkeyword hdatatype
    · exact ⟨hname, hkeyword⟩
    · exact ⟨hname, hdatatype, hkeyword⟩
    · exact ⟨hname, hkeyword, hdatatype⟩
  · exact isNumber_of_not_isWord hnumber hword
  · exact (check_iff _ text).mp hat
  · -- All rules have been tried here, and none accepted the text.
    intro r hr
    have hcheck := (r.check_iff text).mpr hr
    cases r with
    | blanks => exact hblanks hcheck
    | sign => exact hsign hcheck
    | word => exact hword hcheck
    | number => exact hnumber hcheck
    | atWord => exact hat hcheck

/-- The kind that a rule settles. -/
def kindUnder (v : Vocabulary) (text : List Char) : SpellingRule → Kind
  | blanks => .space
  | sign => .symbol
  | word => v.kindOfWord text
  | number => .numeric
  | .atWord => .atWord

/-- A rule that fits settles the kind, wherever it stands in the order. Only the rule
    for numbers has another one to fear. -/
theorem kindOf_of_fits (v : Vocabulary) {text : List Char} {r : SpellingRule}
    (h : r.Fits text) (hword : r ≠ .number ∨ ¬ IsName text) :
    v.kindOf text = v.kindUnder text r := by
  have hcheck := (r.check_iff text).mpr h
  have hother : ∀ r' : SpellingRule, r' ≠ r → ¬ (r = .word ∧ r' = .number) →
      ¬ r'.check text = true := by
    intro r' hne hpair hcheck'
    have hfits' := (r'.check_iff text).mp hcheck'
    rcases overlap h hfits' hne.symm with hpair' | ⟨hr, hr'⟩
    · exact hpair hpair'
    · -- The text would be a number and a word, and only the former is allowed.
      rw [hr'] at hfits'
      exact hword.elim (fun hne' => hne' hr) fun hname => hname hfits'
  rw [kindOf_eq]
  -- Every rule in front of the one that fits is another one, so it is passed over.
  cases r with
  | blanks => rw [if_pos hcheck, kindUnder]
  | sign => rw [if_neg (hother blanks (by decide) (by decide)), if_pos hcheck, kindUnder]
  | word =>
      rw [if_neg (hother blanks (by decide) (by decide)),
        if_neg (hother sign (by decide) (by decide)), if_pos hcheck, kindUnder]
  | number =>
      rw [if_neg (hother blanks (by decide) (by decide)),
        if_neg (hother sign (by decide) (by decide)),
        if_neg (hother word (by decide) (by decide)), if_pos hcheck, kindUnder]
  | atWord =>
      rw [if_neg (hother blanks (by decide) (by decide)),
        if_neg (hother sign (by decide) (by decide)),
        if_neg (hother word (by decide) (by decide)),
        if_neg (hother number (by decide) (by decide)), if_pos hcheck, kindUnder]

/-- A text that means a kind is found to be of that kind. -/
theorem kindOf_of_means {v : Vocabulary} {text : List Char} {k : Kind} (h : v.Means text k) :
    v.kindOf text = k := by
  have hname : IsName text → v.kindOf text = v.kindOfWord text :=
    fun hname => v.kindOf_of_fits (r := .word) hname (Or.inl (by decide))
  -- Words share a rule and are told apart by the tables. Any other kind has its own rule.
  cases k with
  | space => exact v.kindOf_of_fits (r := .blanks) h (Or.inl (by decide))
  | symbol => exact v.kindOf_of_fits (r := .sign) h (Or.inl (by decide))
  | keyword => rw [hname h.1, kindOfWord, if_pos h.2]
  | datatype => rw [hname h.1, kindOfWord, if_neg h.2.2, if_pos h.2.1]
  | identifier => rw [hname h.1, kindOfWord, if_neg h.2.1, if_neg h.2.2]
  | numeric => exact v.kindOf_of_fits (IsNumber.fits h) (Or.inr (IsNumber.not_isName h))
  | atWord => exact v.kindOf_of_fits (r := .atWord) h (Or.inl (by decide))
  | undefined =>
      have hnone : ∀ r : SpellingRule, ¬ r.check text = true :=
        fun r hcheck => h r ((r.check_iff text).mp hcheck)
      rw [kindOf_eq, if_neg (hnone _), if_neg (hnone _), if_neg (hnone _), if_neg (hnone _),
        if_neg (hnone _)]
  | lineComment | blockComment | stringLiteral | characterLiteral | delimiter | lineFeed =>
      exact False.elim h

/-- The kind of a text is the one it means, and so it means exactly one. -/
theorem kindOf_eq_iff (v : Vocabulary) (text : List Char) (k : Kind) :
    v.kindOf text = k ↔ v.Means text k :=
  ⟨fun h => h ▸ v.means_kindOf text, kindOf_of_means⟩

/-- Only the words of a vocabulary matter. -/
theorem kindOf_congr {v w : Vocabulary}
    (h : ∀ name, IsName name →
      (String.ofList name ∈ v.keywords ↔ String.ofList name ∈ w.keywords) ∧
      (String.ofList name ∈ v.datatypes ↔ String.ofList name ∈ w.datatypes))
    (text : List Char) : v.kindOf text = w.kindOf text := by
  rw [kindOf_eq, kindOf_eq]
  by_cases hword : word.check text = true
  · have hname := h text ((check_iff word text).mp hword)
    rw [kindOfWord, kindOfWord]
    simp only [hname.1, hname.2]
  · simp only [if_neg hword]

/-- The kind of a text is decided by its spelling, with a condition for each kind that
    does not depend on the order of the rules. The empty text is undefined, and so is
    all text in which there is a line break, unless it begins with an at sign. Entries
    of the vocabulary that are no words have no effect. And only two rules overlap. -/
theorem spelling_decides (v : Vocabulary) (text : List Char) :
    (∀ k, v.kindOf text = k ↔ v.Means text k) ∧
    v.kindOf [] = .undefined ∧
    ('\n' ∈ text → text.head? ≠ some '@' → v.kindOf text = .undefined) ∧
    (∀ w : Vocabulary,
      (∀ name, IsName name →
        (String.ofList name ∈ v.keywords ↔ String.ofList name ∈ w.keywords) ∧
        (String.ofList name ∈ v.datatypes ↔ String.ofList name ∈ w.datatypes)) →
      v.kindOf text = w.kindOf text) ∧
    (∀ r r' : SpellingRule, r.Fits text → r'.Fits text → r ≠ r' →
      r = .word ∧ r' = .number ∨ r = .number ∧ r' = .word) ∧
    ∃ both, SpellingRule.word.Fits both ∧ SpellingRule.number.Fits both := by
  refine ⟨v.kindOf_eq_iff text, rfl, ?_, fun w h => kindOf_congr h text, fun r r' => overlap,
    ['c', 'a', 'f', 'e'], ?_, ?_⟩
  · intro hbreak hat
    -- The one rule that is left for such a text asks for an at sign.
    refine kindOf_of_means fun r hr => hat ?_
    rw [eq_atWord_of_mem hr hbreak] at hr
    exact hr
  · exact (check_iff _ _).mp rfl
  · exact (check_iff _ _).mp rfl

/-- A number with a line break behind it is undefined, letters that have the digits and
    the mark of a number are a word, and a keyword that is no word does not change that. -/
theorem spelling_decides_long :
    java.kindOf ['1', 'L', '\n'] = .undefined ∧ java.kindOf ['x', 'L'] = .identifier ∧
    java.kindOf ['x', 'L'] = kindOf ⟨"1" :: java.keywords, java.datatypes⟩ ['x', 'L'] := by
  refine ⟨(spelling_decides java _).2.2.1 (by decide) (by decide),
    ((spelling_decides java _).1 .identifier).mpr ⟨(isWord_iff _).mp rfl, by decide, by decide⟩,
    (spelling_decides java _).2.2.2.1 _ fun name hname => ⟨?_, Iff.rfl⟩⟩
  rw [List.mem_cons, or_iff_right]
  intro heq
  have hone : name = ['1'] := String.ofList_injective heq
  rw [hone] at hname
  exact absurd ((isWord_iff _).mpr hname) (by decide)

/-- Behind an at sign anything goes, so an annotation may end in a line break. -/
theorem kindOf_with_lineBreak :
    ['@', '\n'].getLast? = some '\n' ∧ java.kindOf ['@', '\n'] = .atWord ∧
      java.kindOf ['@', '\n'] ≠ .undefined :=
  ⟨rfl, rfl, by decide⟩

end Vocabulary

end SourceTexture
