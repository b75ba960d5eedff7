/-!
# Control sequences

Text as it reads once everything meant for a terminal is taken out of it.

A terminal obeys some characters instead of showing them. Control characters are
obeyed one by one. The escape character opens a sequence, and what follows is an
order to the terminal until the sequence is over: how it goes on depends on the
characters read so far, and it may go on for as long as the text does. An escape
character breaks off the sequence it stands in and opens another one, and the
characters `CAN` and `SUB` break it off for good.

White space keeps its place even where it stands in the middle of a short
sequence. It shows, and so does the text behind it, as if the sequence were
over; but it is only put aside. The next control character takes it up again,
unless a character beyond ASCII has come before and made an end of it.

## Main definitions

* `Terminal.Sequence`: The stages of an unfinished sequence.
* `Terminal.Sequence.next?`: A sequence after one more character.
* `Terminal.State`: What a terminal makes of the next character.
* `Terminal.State.next`: The state after a character.
* `Terminal.State.shows`: Whether a character shows.
* `Terminal.plain`: The characters of a text that show.

## Theorems

* `Terminal.plain_eq_self`: Text without control characters is plain.
-/

namespace SourceTexture

namespace Terminal

/-- Whether a character is white space that a terminal obeys by moving on. -/
def isLayout (c : Char) : Bool :=
  c = '\t' || c = '\n' || c = '\x0C' || c = '\r'

/-- Whether a character is a control character and shows no trace. -/
def isSilent (c : Char) : Bool :=
  (c < ' ' || c = '\x7F') && !isLayout c

/-- Whether a character lies between two others or is one of them. -/
def isAmong (first last c : Char) : Bool :=
  first ≤ c && c ≤ last

/-- The stages of an unfinished sequence. -/
inductive Sequence where
  /-- Nothing but the escape character. -/
  | escape
  /-- An escape character and characters that only lead on to the last one. -/
  | designation
  /-- A control sequence, with some of its parameters. -/
  | control
  /-- The start of a device control string. -/
  | device
  /-- A device control string within its parameters. -/
  | deviceParameters
  /-- A device control string behind its parameters. -/
  | deviceDesignation
  /-- The body of a string that the string terminator ends. -/
  | string
  /-- The body of a command to the system, such as a title for the window. -/
  | command
  deriving DecidableEq

namespace Sequence

/-- Whether white space shows within a sequence. Strings take it in. -/
def yieldsToLayout : Sequence → Bool
  | escape | designation | control => true
  | device | deviceParameters | deviceDesignation | string | command => false

/-- A sequence after one more character, or `none` if that was the last one. A
    character that has no place in a sequence changes nothing.

    The string terminator is one byte, and it counts wherever it occurs, even
    inside the encoding of a longer character. -/
def next? : Sequence → Char → Option Sequence
  | escape, c =>
    if c = '[' then some control
    else if c = ']' then some command
    else if c = 'P' then some device
    else if c = 'X' || c = '^' || c = '_' then some string
    else if isAmong ' ' '/' c then some designation
    else if isAmong '0' '~' c then none
    else some escape
  | designation, c => if isAmong '0' '~' c then none else some designation
  | control, c => if isAmong '@' '~' c then none else some control
  | device, c =>
    if isAmong ' ' '/' c then some deviceDesignation
    else if isAmong '0' '?' c then some deviceParameters
    else if isAmong '@' '~' c then some string
    else some device
  | deviceParameters, c =>
    if isAmong ' ' '/' c then some deviceDesignation
    else if isAmong '<' '~' c then some string
    else some deviceParameters
  | deviceDesignation, c => if isAmong '0' '~' c then some string else some deviceDesignation
  | string, c => if (String.utf8EncodeChar c).contains 0x9C then none else some string
  | command, c => if c = '\x07' then none else some command

end Sequence

/-- What a terminal makes of the next character. -/
inductive State where
  /-- It is text. -/
  | text
  /-- It belongs to a sequence. -/
  | within (s : Sequence)
  /-- It is text, but the sequence has not been ended, only put aside. -/
  | aside (s : Sequence)
  deriving DecidableEq

namespace State

/-- The state after a character. -/
def next (s : State) (c : Char) : State :=
  if c = '\x1B' then within .escape
  else if c = '\x18' || c = '\x1A' then text
  else
    match s with
    | text => text
    | within q =>
      if isLayout c && q.yieldsToLayout then aside q
      else
        match q.next? c with
        | some q' => within q'
        | none => text
    | aside q =>
      if isSilent c then within q
      -- Beyond ASCII a character is read whole, and nothing is left open.
      else if '\x7F' < c then text
      else aside q

/-- Whether a character shows. -/
def shows : State → Char → Bool
  | within q, c => isLayout c && q.yieldsToLayout
  | text, c | aside _, c => !isSilent c

end State

/-- The characters that show if a text is read from the given state on. -/
def shown : State → List Char → List Char
  | _, [] => []
  | s, c :: text =>
    if s.shows c then c :: shown (s.next c) text else shown (s.next c) text

/-- The text without anything that a terminal would obey, white space apart. -/
def plain (text : List Char) : List Char :=
  shown .text text

/-- A character that is no control character leaves the terminal ready for
    text. -/
theorem State.next_text_of_not_silent {c : Char} (h : isSilent c = false) :
    State.text.next c = .text := by
  have hc : c ≠ '\x1B' := by
    rintro rfl
    exact absurd h (by decide)
  rw [State.next, if_neg hc]
  split <;> rfl

/-- Text without control characters is plain already. -/
theorem plain_eq_self (text : List Char) (h : ∀ c ∈ text, isSilent c = false) :
    plain text = text := by
  unfold plain
  -- Nothing leaves the state for text, so this is where every step begins.
  induction text with
  | nil => rfl
  | cons c text ih =>
    have hc : isSilent c = false := h c List.mem_cons_self
    have hs : State.text.shows c = true := by rw [State.shows, hc]; rfl
    rw [shown, if_pos hs, State.next_text_of_not_silent hc,
      ih fun d hd => h d (List.mem_cons_of_mem c hd)]

end Terminal

end SourceTexture
