import SourceTexture.Text.ControlSequence

/-!
# Log records

What the program tells about its work, record by record.

A record has a level of urgency, the part of the program it comes from, and a
message. A threshold lets through the records that are urgent enough.

A message may quote names that nobody has checked. Its later lines are set in,
so that no part of it passes for a record, and whatever a terminal would obey is
taken out of it.

## Main definitions

* `Level`: The five levels, the most urgent first.
* `Record`: A message with its level and where it comes from.
* `Record.text`: A record as it is printed.
* `Threshold`: The least urgent level that is printed, if any.
* `Threshold.ofName?`: The threshold of a name.
* `Threshold.admits`: Whether records of a level pass.
-/

namespace SourceTexture

/-- How urgent a record is. -/
inductive Level where
  /-- Something could not be done. -/
  | error
  /-- Something was left out. -/
  | warn
  /-- Something was done. -/
  | info
  /-- How it was done, stage by stage. -/
  | debug
  /-- How it was done, fragment by fragment. -/
  | trace
  deriving DecidableEq

/-- A message with its level and where it comes from. -/
structure Record where
  /-- How urgent the record is. -/
  level : Level
  /-- The part of the program that tells. -/
  target : String
  /-- What it tells. -/
  message : String
  deriving DecidableEq

namespace Level

/-- How far a level is from the most urgent. -/
def rank : Level → Nat
  | error => 0
  | warn => 1
  | info => 2
  | debug => 3
  | trace => 4

/-- The name of a level, filled up to five characters. -/
def label : Level → String
  | error => "ERROR"
  | warn => "WARN "
  | info => "INFO "
  | debug => "DEBUG"
  | trace => "TRACE"

end Level

/-- A message whose lines after the first are set in by four blanks, so that no
    part of it passes for a record. -/
def indented (message : List Char) : List Char :=
  message.flatMap fun c => if c = '\n' then ['\n', ' ', ' ', ' ', ' '] else [c]

/-- A record as it is printed, its line break included. The break is screened
    with the rest, so a sequence that the message leaves open can swallow it. -/
def Record.text (r : Record) : String :=
  let line := "[" ++ r.level.label ++ " " ++ r.target ++ "] "
    ++ String.ofList (indented r.message.toList) ++ "\n"
  String.ofList (Terminal.plain line.toList)

/-- The least urgent level that is printed, or `none` where nothing is. -/
abbrev Threshold := Option Level

namespace Threshold

/-- The threshold unless another one is asked for. -/
def standard : Threshold := some .info

/-- The threshold of a name: that of a level, or none at all. -/
def ofName? (name : String) : Option Threshold :=
  if name = "off" then some none
  else if name = "error" then some (some .error)
  else if name = "warn" then some (some .warn)
  else if name = "info" then some (some .info)
  else if name = "debug" then some (some .debug)
  else if name = "trace" then some (some .trace)
  else none

/-- Whether records of a level pass. -/
def admits (t : Threshold) (level : Level) : Bool :=
  match t with
  | none => false
  | some least => level.rank ≤ least.rank

end Threshold

end SourceTexture
