import SourceTexture.Proofs.Fragment.Isolation

/-!
# Spelling

What the kinds that depend on spelling say about the text.

The rules that settle the kind of a word are tried one after the other, so a kind
says two things: the rule it stands for fits, and no earlier one does. Most of the
time the second adds nothing. It does for numbers. Their rule also fits text that
begins with a letter, like `cafe`, but such text is a word, and so what is left for
numbers begins with a digit.

Of words a scanner leaves undefined even less is possible: they hold plain
characters only, and of the signs that are symbols two are plain.

## Main definitions

* `IsName`: The texts that are spelled like a word.
* `IsNumber`: The texts that are numbers and no words.
* `Fragment.Spelled`: What the kind of a fragment says about its text.

## Theorems

* `isWord_iff`: The rule for words.
* `isNumeral_iff`: The rule for numbers.
* `isNumber_of_not_isWord`: Numbers that are no words begin with a digit.
* `eq_symbol_of_isPlain`: The symbols among plain characters.
* `Vocabulary.spelled_kindOf`: Words are spelled as their kinds say.
-/

namespace SourceTexture

/-- The text is a letter or an underscore, followed by letters, digits and
    underscores, all of them ASCII. -/
def IsName (text : List Char) : Prop :=
  ∃ c cs, text = c :: cs ∧ (c.isAlpha = true ∨ c = '_') ∧
    ∀ d ∈ cs, d.isAlpha = true ∨ d.isDigit = true ∨ d = '_'

/-- The text ends in nothing, or in one mark for a long number. -/
def IsLongMark (text : List Char) : Prop :=
  text = [] ∨ text = ['l'] ∨ text = ['L']

/-- The text is an ASCII digit, followed by hexadecimal digits and `x`, and at
    most one mark for a long number. -/
def IsNumber (text : List Char) : Prop :=
  ∃ c digits mark, text = c :: digits ++ mark ∧ c.isDigit = true ∧
    (∀ d ∈ digits, isNumeralDigit d = true) ∧ IsLongMark mark

theorem isWordStart_iff (c : Char) : isWordStart c = true ↔ c.isAlpha = true ∨ c = '_' := by
  rw [isWordStart, Bool.or_eq_true, decide_eq_true_eq]

theorem isWordPart_iff (c : Char) :
    isWordPart c = true ↔ c.isAlpha = true ∨ c.isDigit = true ∨ c = '_' := by
  rw [isWordPart, Bool.or_eq_true, isWordStart_iff, or_assoc, or_comm (a := c = '_')]

/-- A word is a name: a character that may begin one, and behind it any number of those
    that may go on. -/
theorem isWord_iff (text : List Char) : isWord text = true ↔ IsName text := by
  cases text with
  | nil =>
      constructor
      · exact fun h => Bool.noConfusion h
      · rintro ⟨c, cs, hnil, -⟩
        exact absurd hnil.symm (List.cons_ne_nil c cs)
  | cons c cs =>
      rw [isWord, Bool.and_eq_true, List.all_eq_true, isWordStart_iff]
      constructor
      · rintro ⟨hc, hcs⟩
        exact ⟨c, cs, rfl, hc, fun d hd => (isWordPart_iff d).mp (hcs d hd)⟩
      · -- A text has only one first character, so it is the one that the name begins with.
        rintro ⟨_, _, heq, hc, hcs⟩
        rcases List.cons.inj heq with ⟨rfl, rfl⟩
        exact ⟨hc, fun d hd => (isWordPart_iff d).mpr (hcs d hd)⟩

/-- The rule for numbers accepts a run of digits and at most one mark behind it. -/
theorem isNumeral_iff (text : List Char) :
    isNumeral text = true ↔ ∃ c digits mark, text = c :: digits ++ mark ∧
      isNumeralDigit c = true ∧ (∀ d ∈ digits, isNumeralDigit d = true) ∧ IsLongMark mark := by
  cases text with
  | nil =>
      constructor
      · exact fun h => Bool.noConfusion h
      · rintro ⟨c, digits, mark, hnil, -⟩
        exact absurd hnil.symm (List.cons_ne_nil c _)
  | cons c cs =>
      rw [isNumeral, Bool.and_eq_true]
      constructor
      · rintro ⟨hc, hmark⟩
        refine ⟨c, cs.takeWhile isNumeralDigit, cs.dropWhile isNumeralDigit, ?_, hc,
          fun d hd => List.mem_takeWhile_imp hd, ?_⟩
        · rw [List.cons_append, List.takeWhile_append_dropWhile]
        · -- What stands behind the digits decides, and the rule has a case for each length.
          split at hmark
          · next hnil => exact Or.inl hnil
          · next mark hone =>
              rw [isLongMark, Bool.or_eq_true, decide_eq_true_eq, decide_eq_true_eq] at hmark
              rw [hone]
              rcases hmark with h | h
              · exact Or.inr (Or.inl (by rw [h]))
              · exact Or.inr (Or.inr (by rw [h]))
          · exact Bool.noConfusion hmark
      · rintro ⟨_, digits, mark, heq, hc, hdigits, hmark⟩
        rw [List.cons_append] at heq
        rcases List.cons.inj heq with ⟨rfl, hcs⟩
        refine ⟨hc, ?_⟩
        rw [hcs, List.dropWhile_append_of_pos hdigits]
        rcases hmark with h | h | h <;> (rw [h]; rfl)

theorem isAlpha_of_lower {c : Char} (hfirst : 'a' ≤ c) (hlast : c ≤ 'z') : c.isAlpha = true :=
  Bool.or_eq_true_iff.mpr (Or.inr
    (Bool.and_eq_true_iff.mpr ⟨decide_eq_true hfirst, decide_eq_true hlast⟩))

theorem isAlpha_of_upper {c : Char} (hfirst : 'A' ≤ c) (hlast : c ≤ 'Z') : c.isAlpha = true :=
  Bool.or_eq_true_iff.mpr (Or.inl (decide_eq_true ⟨hfirst, hlast⟩))

/-- A digit of a number that is no decimal digit is a letter. -/
theorem isAlpha_of_isNumeralDigit {c : Char} (h : isNumeralDigit c = true)
    (hdigit : c.isDigit = false) : c.isAlpha = true := by
  simp only [isNumeralDigit, hdigit, Bool.false_or, Bool.or_eq_true, Bool.and_eq_true,
    decide_eq_true_eq] at h
  rcases h with (⟨hfirst, hlast⟩ | ⟨hfirst, hlast⟩) | hx
  · exact isAlpha_of_lower hfirst (Char.le_trans hlast (by decide))
  · exact isAlpha_of_upper hfirst (Char.le_trans hlast (by decide))
  · rw [hx]
    exact isAlpha_of_lower (by decide) (by decide)

/-- Text that has the digits and the mark of a number is a word, unless it begins
    with a decimal digit. -/
theorem isNumber_of_not_isWord {text : List Char} (h : isNumeral text = true)
    (hword : ¬ isWord text = true) : IsNumber text := by
  rcases (isNumeral_iff text).mp h with ⟨c, digits, mark, htext, hc, hdigits, hmark⟩
  cases hdigit : c.isDigit with
  | true => exact ⟨c, digits, mark, htext, hdigit, hdigits, hmark⟩
  | false =>
      -- It begins with a letter, and whatever else it may hold may stand in a word.
      refine absurd ((isWord_iff text).mpr ⟨c, digits ++ mark, ?_, ?_, ?_⟩) hword
      · rw [htext, List.cons_append]
      · exact Or.inl (isAlpha_of_isNumeralDigit hc hdigit)
      · refine List.forall_mem_append.mpr ⟨fun d hd => ?_, ?_⟩
        · cases hd' : d.isDigit with
          | true => exact Or.inr (Or.inl rfl)
          | false => exact Or.inl (isAlpha_of_isNumeralDigit (hdigits d hd) hd')
        · rcases hmark with rfl | rfl | rfl
          · exact List.forall_mem_nil _
          · exact List.forall_mem_singleton.mpr (Or.inl rfl)
          · exact List.forall_mem_singleton.mpr (Or.inl rfl)

/-- The symbols among plain characters: all others are delimiters, or the slash. -/
theorem eq_symbol_of_isPlain {c : Char} (h : isPlain c = true) (hsymbol : symbols.contains c) :
    c = '~' ∨ c = '#' := by
  -- The symbols are few enough to be gone through.
  have hplain : symbols.filter isPlain = ['~', '#'] := rfl
  have hmem : c ∈ symbols.filter isPlain :=
    List.mem_filter.mpr ⟨List.contains_iff_mem.mp hsymbol, h⟩
  rw [hplain] at hmem
  exact List.mem_pair.mp hmem

/-- What the kind of a fragment says about its text, where the kind depends on
    spelling or the text is not free to hold anything. -/
def Fragment.Spelled (v : Vocabulary) (f : Fragment) : Prop :=
  match f.kind with
  | .space => ∀ c ∈ f.content, c = ' '
  | .delimiter => (∀ c ∈ f.content, isDelimiter c = true ∨ c = '/') ∧
      ¬ ['/', '/'] <:+: f.content ∧ ¬ ['/', '*'] <:+: f.content
  | .lineComment => ['/', '/'] <+: f.content
  | .lineFeed => f.content = ['\n']
  | .symbol => f.content = ['~'] ∨ f.content = ['#']
  | .keyword => IsName f.content ∧ String.ofList f.content ∈ v.keywords
  | .datatype => IsName f.content ∧ String.ofList f.content ∉ v.keywords ∧
      String.ofList f.content ∈ v.datatypes
  | .identifier => IsName f.content ∧ String.ofList f.content ∉ v.keywords ∧
      String.ofList f.content ∉ v.datatypes
  | .numeric => IsNumber f.content
  | .atWord => f.content.head? = some '@'
  | .undefined | .blockComment | .stringLiteral | .characterLiteral => True

namespace Vocabulary

/-- A name is spelled as the kind that the tables give it. -/
theorem spelled_kindOfWord (v : Vocabulary) {word : List Char} (h : IsName word) :
    Fragment.Spelled v ⟨v.kindOfWord word, word⟩ := by
  rw [kindOfWord]
  split_ifs with hkeyword hdatatype
  · exact ⟨h, hkeyword⟩
  · exact ⟨h, hkeyword, hdatatype⟩
  · exact ⟨h, hkeyword, hdatatype⟩

/-- Text without anything that ends a word is spelled as its kind says. -/
theorem spelled_kindOf (v : Vocabulary) {text : List Char} (hne : text ≠ [])
    (hplain : ∀ c ∈ text, isPlain c = true) : Fragment.Spelled v ⟨v.kindOf text, text⟩ := by
  rw [kindOf, if_neg (not_isBlankRun_of_isPlain hne hplain)]
  split_ifs with hsymbol hword hnumeral hat
  · -- A single sign that is plain.
    cases text with
    | nil => exact absurd rfl hne
    | cons c text =>
        cases text with
        | nil =>
            rcases eq_symbol_of_isPlain (hplain c List.mem_cons_self) hsymbol with h | h
            · exact Or.inl (by rw [h])
            · exact Or.inr (by rw [h])
        | cons d text => exact Bool.noConfusion hsymbol
  · exact v.spelled_kindOfWord ((isWord_iff text).mp hword)
  · exact isNumber_of_not_isWord hnumeral hword
  · cases text with
    | nil => exact absurd rfl hne
    | cons c text => exact congrArg some (decide_eq_true_eq.mp hat)
  · exact trivial

end Vocabulary

end SourceTexture
