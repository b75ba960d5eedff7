import SourceTexture.Fragment.Basic
import SourceTexture.Text.Normal

/-!
# The scanner

Cutting source text into raw fragments, one character at a time.

A scanner is a value: the mode it is in and the text it has gathered but not
yet handed out. Pushing a character yields the fragments that the character
completes and the scanner that takes the next one, so a text may arrive in
pieces, and several texts may be scanned side by side.

The scanner tells comments, literals, delimiters and blanks apart. Everything
else it hands out as undefined; what such a word is depends on its spelling and
is settled later.

Three choices are easy to miss. A slash is held back until the next character
shows whether a comment begins. Blanks inside a comment come out as fragments of
that comment, one by one, while blanks inside a literal stay in the text
gathered for it. A line break always comes out on its own, and a literal or block
comment it stands in goes on behind it.

The text gathered so far is kept latest character first. The next character is
then added in front, and a scanner never copies what it holds.

## Main definitions

* `Quote`: The two kinds of quotation mark.
* `Mode`: The part of the text a scanner stands in.
* `Scanner`: A mode and the text gathered in it.
* `Scanner.step`: What one character that counts completes.
* `Scanner.push`: What one character completes, and the scanner after it.
* `Scanner.feed`: The same for a whole text.
* `Scanner.finish`: What is left over when the text ends.
* `Fragment.scan`: The raw fragments of a text.

## Theorems

* `Scanner.feed_nil`, `Scanner.feed_cons`: Feeding is pushing in turn.
* `Scanner.feed_append`: A text may be fed in two pieces.
-/

namespace SourceTexture

/-- The delimiters: punctuation that is gathered into runs. -/
def delimiters : List Char :=
  ['!', '%', '&', '(', ')', '=', '?', '{', '[', ']', '}', '+', '*', '-', '.', ':', ',', ';', '|',
    '<', '>']

/-- Whether a character is one of the delimiters. The slash is not, as it may
    open a comment. -/
def isDelimiter (c : Char) : Bool :=
  delimiters.contains c

/-- A kind of quotation mark. -/
inductive Quote where
  /-- The mark around string literals. -/
  | double
  /-- The mark around character literals. -/
  | single
  deriving DecidableEq

/-- The character a mark is written as. -/
def Quote.mark : Quote → Char
  | double => '"'
  | single => '\''

/-- The kind of a literal between two such marks. -/
def Quote.kind : Quote → Kind
  | double => .stringLiteral
  | single => .characterLiteral

/-- The part of the text a scanner stands in. -/
inductive Mode where
  /-- Between comments and literals, in a word or before one. -/
  | code
  /-- Behind a slash that may yet open a comment. -/
  | slash
  /-- In a run of delimiters. -/
  | delimiters
  /-- In a literal; the flag says that the character before was a backslash
      which takes the meaning from the next one. -/
  | literal (quote : Quote) (escaped : Bool)
  /-- In a block comment. -/
  | blockComment
  /-- In a block comment, behind a star that may yet close it. -/
  | blockStar
  /-- In a line comment. -/
  | lineComment
  deriving DecidableEq

/-- The kind of the text gathered in a mode. -/
def Mode.kind : Mode → Kind
  | code => .undefined
  | slash | delimiters => .delimiter
  | literal quote _ => quote.kind
  | blockComment | blockStar => .blockComment
  | lineComment => .lineComment

/-- A mode together with the text gathered in it, latest character first. -/
structure Scanner where
  /-- The part of the text the scanner stands in. -/
  mode : Mode := .code
  /-- The text gathered and not handed out yet, latest character first. -/
  pending : List Char := []
  deriving DecidableEq

namespace Scanner

/-- The text gathered so far as a fragment, if there is any. -/
def flush (s : Scanner) : List Fragment :=
  match s.pending with
  | [] => []
  | c :: cs => [⟨s.mode.kind, (c :: cs).reverse⟩]

/-- What is left over when the text ends here. -/
def finish (s : Scanner) : List Fragment :=
  s.flush

/-- Adds a character to the text gathered. -/
def gather (s : Scanner) (c : Char) : Scanner :=
  { s with pending := c :: s.pending }

/-- Hands out the text gathered and behind it a fragment that is complete by
    itself. The mode goes on. -/
def cut (s : Scanner) (f : Fragment) : List Fragment × Scanner :=
  (s.flush ++ [f], { s with pending := [] })

/-- Hands out the text gathered and enters a mode with the character that opens
    it. -/
def enter (s : Scanner) (mode : Mode) (c : Char) : List Fragment × Scanner :=
  (s.flush, ⟨mode, [c]⟩)

/-- A character in code: it ends the word before it, or continues it. -/
def pushCode (s : Scanner) (c : Char) : List Fragment × Scanner :=
  if c = '\n' then s.cut .lineBreak
  else if c = '/' then s.enter .slash c
  else if c = Quote.double.mark then s.enter (.literal .double false) c
  else if c = Quote.single.mark then s.enter (.literal .single false) c
  else if isDelimiter c then s.enter .delimiters c
  else if Text.isBlank c then s.cut ⟨.space, Text.expand c⟩
  else ([], s.gather c)

/-- A character that ends the run before it and is read afresh as code. -/
def resume (s : Scanner) (c : Char) : List Fragment × Scanner :=
  let (fragments, next) := pushCode {} c
  (s.flush ++ fragments, next)

/-- A character in a block comment that is not behind a star. -/
def pushBlockComment (s : Scanner) (c : Char) : List Fragment × Scanner :=
  if c = '\n' then s.cut .lineBreak
  else if c = '*' then ([], { s.gather c with mode := .blockStar })
  else if Text.isBlank c then s.cut ⟨.blockComment, Text.expand c⟩
  else ([], s.gather c)

/-- A character in a line comment. The line break ends it and is no part of
    it. -/
def pushLineComment (s : Scanner) (c : Char) : List Fragment × Scanner :=
  if c = '\n' then (s.flush ++ [.lineBreak], {})
  else if Text.isBlank c then s.cut ⟨.lineComment, Text.expand c⟩
  else ([], s.gather c)

/-- A character in a literal. A line break goes on with the literal but forgets
    a backslash before it; the mark closes the literal unless a backslash took
    its meaning. -/
def pushLiteral (s : Scanner) (quote : Quote) (escaped : Bool) (c : Char) :
    List Fragment × Scanner :=
  if c = '\n' then (s.flush ++ [.lineBreak], { mode := .literal quote false })
  else if c = quote.mark ∧ escaped = false then ((s.gather c).flush, {})
  -- A backslash that is escaped itself takes the meaning from nothing.
  else if c = '\\' ∧ escaped = false then ([], { s.gather c with mode := .literal quote true })
  else ([], ⟨.literal quote false, (Text.expand c).reverse ++ s.pending⟩)

/-- A character that counts, in the mode the scanner is in. -/
def step (s : Scanner) (c : Char) : List Fragment × Scanner :=
  match s.mode with
  | .code => s.pushCode c
  | .slash =>
    -- The held back slash opens a comment or was one by itself.
    if c = '*' then ([], { s.gather c with mode := .blockComment })
    else if c = '/' then ([], { s.gather c with mode := .lineComment })
    else s.resume c
  | .delimiters => if isDelimiter c then ([], s.gather c) else s.resume c
  | .literal quote escaped => s.pushLiteral quote escaped c
  | .blockComment => s.pushBlockComment c
  | .blockStar =>
    -- Another star leaves the comment as close to its end as before.
    if c = '/' then ((s.gather c).flush, {})
    else if c = '*' then ([], s.gather c)
    else { s with mode := .blockComment }.pushBlockComment c
  | .lineComment => s.pushLineComment c

/-- The fragments a character completes, and the scanner that takes the next
    one. A carriage return passes without a trace in every mode. -/
def push (s : Scanner) (c : Char) : List Fragment × Scanner :=
  if c = '\r' then ([], s) else s.step c

/-- Feeds a text, putting what it completes in front of the fragments `done`,
    latest first. -/
def feedOnto (done : List Fragment) (s : Scanner) : List Char → List Fragment × Scanner
  | [] => (done, s)
  | c :: text => feedOnto ((s.push c).1.reverse ++ done) (s.push c).2 text

/-- The fragments a text completes, in order, and the scanner after it. -/
def feed (s : Scanner) (text : List Char) : List Fragment × Scanner :=
  let (done, next) := feedOnto [] s text
  (done.reverse, next)

/-- What was emitted before stays below, and the new fragments lie on top of it, the
    last one first. -/
theorem feedOnto_eq (done : List Fragment) (s : Scanner) (text : List Char) :
    feedOnto done s text = ((s.feed text).1.reverse ++ done, (s.feed text).2) := by
  induction text generalizing done s with
  | nil => rfl
  | cons c text ih =>
      simp only [feed, feedOnto]
      rw [ih, ih ((s.push c).1.reverse ++ [])]
      simp only [List.append_nil, List.reverse_append, List.reverse_reverse, List.append_assoc]

@[simp] theorem feed_nil (s : Scanner) : s.feed [] = ([], s) := rfl

/-- Feeding is pushing the characters in turn. -/
theorem feed_cons (s : Scanner) (c : Char) (text : List Char) :
    s.feed (c :: text) =
      ((s.push c).1 ++ ((s.push c).2.feed text).1, ((s.push c).2.feed text).2) := by
  rw [feed, feedOnto, feedOnto_eq]
  simp only [List.append_nil, List.reverse_append, List.reverse_reverse]

/-- A text may be fed in two pieces. -/
theorem feed_append (s : Scanner) (front back : List Char) :
    s.feed (front ++ back) =
      ((s.feed front).1 ++ ((s.feed front).2.feed back).1, ((s.feed front).2.feed back).2) := by
  induction front generalizing s with
  | nil => simp only [List.nil_append, feed_nil]
  | cons c front ih => simp only [List.cons_append, feed_cons, ih, List.append_assoc]

end Scanner

/-- The raw fragments of a text, in order. Words come out as undefined. -/
def Fragment.scan (text : List Char) : List Fragment :=
  let (fragments, last) := Scanner.feed {} (Text.stripMark text)
  fragments ++ last.finish

end SourceTexture
