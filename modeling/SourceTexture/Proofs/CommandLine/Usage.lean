import SourceTexture.CommandLine.Invocation
import Mathlib.Data.List.Induction

/-!
# What arguments mean

The arguments of the program as a grammar, and the mistakes that can be made in it.

Behind the command arguments come in two forms: a file by itself, and an output
option with a path behind it, where the path may be anything, an option included.
Read from the left there is never a choice, and reading can only get stuck in one
place, behind an output option that is the last argument. So a list of arguments
either reads as files and output paths or is open at its end.

Mistakes are looked for in a fixed order, and the first one found is reported. For
whether there is a mistake the order does not matter, and it is said here without
one. What is free of mistakes asks for something, with the last output path given.

## Main definitions

* `Arguments.Reads`: Arguments read as files and output paths.
* `Arguments.Open`: Arguments that end with an output option.
* `Misused`: Arguments with a mistake in them.
* `Asks`: Arguments that ask for something.

## Theorems

* `Arguments.reads_or_open`: Arguments can be read or are open.
* `Arguments.sort_of_reads`, `Arguments.sort_of_open`: What sorting makes of them.
* `Invocation.parse_cases`: Arguments that ask for nothing are the misused ones.
* `Asks.output_eq_none`: Only one file can have an output path.
-/

namespace SourceTexture

/-- Whether an argument takes the one behind it for the output path. -/
abbrev IsOutputOption (arg : String) : Prop :=
  arg = "-o" ∨ arg = "--output"

/-- The name of a command. -/
def Command.name : Command → String
  | render => "render"
  | dump => "dump"

/-- The name of a command is the only text that names it. -/
theorem Command.ofName?_eq_some_iff {name : String} {command : Command} :
    ofName? name = some command ↔ name = command.name := by
  constructor
  · intro h
    unfold ofName? at h
    -- A name is compared with that of each command in turn.
    split_ifs at h with hrender hdump
    · rw [← Option.some.inj h, hrender]
      rfl
    · rw [← Option.some.inj h, hdump]
      rfl
  · intro h
    rw [h]
    cases command <;> rfl

/-- A text that is the name of no command names none. -/
theorem Command.ofName?_eq_none_iff {name : String} :
    ofName? name = none ↔ name ≠ "render" ∧ name ≠ "dump" := by
  rw [Option.eq_none_iff_forall_ne_some]
  constructor
  · intro h
    exact ⟨fun hrender => h render (ofName?_eq_some_iff.mpr hrender),
      fun hdump => h dump (ofName?_eq_some_iff.mpr hdump)⟩
  · -- There are no other commands.
    rintro ⟨hrender, hdump⟩ command hname
    cases command with
    | render => exact hrender (ofName?_eq_some_iff.mp hname)
    | dump => exact hdump (ofName?_eq_some_iff.mp hname)

theorem Command.not_help (command : Command) :
    ¬ (command.name = "--help" ∨ command.name = "-h") := by
  cases command <;> decide

namespace Arguments

/-- Arguments read from the left: the files and the output paths among them, each in
    order. -/
inductive Reads : List String → List String → List String → Prop where
  /-- There are no more arguments. -/
  | nil : Reads [] [] []
  /-- A file by itself. -/
  | file {path : String} {rest files outputs : List String} (plain : ¬ IsOutputOption path)
      (behind : Reads rest files outputs) : Reads (path :: rest) (path :: files) outputs
  /-- An option with an output path behind it, whatever that looks like. -/
  | output {option path : String} {rest files outputs : List String}
      (takes : IsOutputOption option) (behind : Reads rest files outputs) :
      Reads (option :: path :: rest) files (path :: outputs)

/-- Arguments that can be read but for an output option at the end. -/
inductive Open : List String → String → Prop where
  /-- What stands in front of the option can be read. -/
  | intro {front files outputs : List String} {option : String}
      (before : Reads front files outputs) (last : IsOutputOption option) :
      Open (front ++ [option]) option

theorem Open.file {path option : String} {rest : List String} (h : Open rest option)
    (hplain : ¬ IsOutputOption path) : Open (path :: rest) option := by
  cases h with
  | intro before last => exact .intro (.file hplain before) last

theorem Open.output {taken path option : String} {rest : List String} (h : Open rest option)
    (htaken : IsOutputOption taken) : Open (taken :: path :: rest) option := by
  cases h with
  | intro before last => exact .intro (.output htaken before) last

/-- Arguments can be read, or they are open at the end. -/
theorem reads_or_open (args : List String) :
    (∃ files outputs, Reads args files outputs) ∨ ∃ option, Open args option := by
  -- An option takes the next argument with it, so there are up to two in a step.
  induction args using List.twoStepInduction with
  | nil => exact Or.inl ⟨[], [], .nil⟩
  | singleton arg =>
      by_cases harg : IsOutputOption arg
      · exact Or.inr ⟨arg, .intro .nil harg⟩
      · exact Or.inl ⟨[arg], [], .file harg .nil⟩
  | cons_cons arg next rest ihrest ihnext =>
      by_cases harg : IsOutputOption arg
      · rcases ihrest with ⟨files, outputs, hreads⟩ | ⟨option, hopen⟩
        · exact Or.inl ⟨files, next :: outputs, .output harg hreads⟩
        · exact Or.inr ⟨option, hopen.output harg⟩
      · rcases ihnext next with ⟨files, outputs, hreads⟩ | ⟨option, hopen⟩
        · exact Or.inl ⟨arg :: files, outputs, .file harg hreads⟩
        · exact Or.inr ⟨option, hopen.file harg⟩

/-- Without an output option all arguments are files. -/
theorem reads_of_plain {args : List String} (h : ∀ arg ∈ args, ¬ IsOutputOption arg) :
    Reads args args [] := by
  induction args with
  | nil => exact .nil
  | cons arg rest ih =>
      rcases List.forall_mem_cons.mp h with ⟨harg, hrest⟩
      exact .file harg (ih hrest)

/-- Sorting adds a file behind those found before. -/
theorem sort_file (found : Arguments) {path : String} (h : ¬ IsOutputOption path)
    (rest : List String) :
    found.sort (path :: rest) = sort { found with files := found.files ++ [path] } rest := by
  -- The last argument is looked at by itself, for an option there has no path.
  cases rest with
  | nil => simp only [sort, if_neg h]
  | cons next rest => rw [sort, if_neg h]

theorem sort_output (found : Arguments) {option : String} (h : IsOutputOption option)
    (path : String) (rest : List String) :
    found.sort (option :: path :: rest) = sort { found with output := some path } rest := by
  rw [sort, if_pos h]

/-- Sorting adds the files it finds to those found before, and the last output path
    counts. -/
theorem sort_of_reads {args files outputs : List String} (h : Reads args files outputs)
    (found : Arguments) :
    found.sort args = .ok ⟨found.files ++ files, outputs.getLast?.or found.output⟩ := by
  induction h generalizing found with
  | nil => rw [sort, List.append_nil, List.getLast?_nil, Option.none_or]
  | @file path rest files outputs hplain _ ih =>
      rw [sort_file found hplain, ih, List.append_assoc, List.singleton_append]
  | @output option path rest files outputs hoption _ ih =>
      rw [sort_output found hoption, ih, List.getLast?_cons, Option.some_or]
      -- A later path takes the place of this one.
      cases outputs.getLast? with
      | none => rfl
      | some last => rfl

/-- Sorting arguments that are open fails with the option that lacks its path. -/
theorem sort_of_open {args : List String} {option : String} (h : Open args option)
    (found : Arguments) : found.sort args = .error (.missingPath option) := by
  cases h with
  | @intro front files outputs option before last =>
      induction before generalizing found with
      | nil => rw [List.nil_append, sort, if_pos last]
      | file hplain _ ih => rw [List.cons_append, sort_file found hplain, ih]
      | output hoption _ ih =>
          rw [List.cons_append, List.cons_append, sort_output found hoption, ih]

end Arguments

open Arguments

/-- Arguments that ask for nothing, for one reason or another. -/
inductive Misused : List String → Prop where
  /-- There are no arguments. -/
  | nothing : Misused []
  /-- The first one asks for help. -/
  | help {name : String} {rest : List String} (asks : name = "--help" ∨ name = "-h") :
      Misused (name :: rest)
  /-- An output option has nothing behind it. -/
  | missingPath {name option : String} {rest : List String} (ends : Open rest option) :
      Misused (name :: rest)
  /-- There is no file. -/
  | noFiles {name : String} {rest outputs : List String} (reads : Reads rest [] outputs) :
      Misused (name :: rest)
  /-- There is an output path, and more than one file. -/
  | severalFiles {name : String} {rest files outputs : List String}
      (reads : Reads rest files outputs) (output : outputs ≠ []) (several : 2 ≤ files.length) :
      Misused (name :: rest)
  /-- There is no such command. -/
  | unknownCommand {name : String} {rest : List String} (render : name ≠ "render")
      (dump : name ≠ "dump") : Misused (name :: rest)

/-- Arguments that ask for a command, with the files among them and the last output
    path. -/
inductive Asks : List String → Invocation → Prop where
  /-- What stands behind the name of the command can be read. -/
  | intro {rest files outputs : List String} (command : Command)
      (reads : Reads rest files outputs) :
      Asks (command.name :: rest) ⟨command, files, outputs.getLast?⟩

/-- Arguments that are not misused have a file, and not an output path and more than one
    file. -/
theorem Arguments.Reads.of_not_misused {name : String} {rest files outputs : List String}
    (reads : Reads rest files outputs) (hused : ¬ Misused (name :: rest)) :
    files ≠ [] ∧ ¬ (outputs ≠ [] ∧ 1 < files.length) := by
  refine ⟨fun hnil => ?_, fun h => hused (.severalFiles reads h.1 h.2)⟩
  rw [hnil] at reads
  exact hused (.noFiles reads)

/-- Arguments that are not misused ask for an output path only if there is one file. -/
theorem Asks.output_eq_none {args : List String} {i : Invocation} (h : Asks args i)
    (hused : ¬ Misused args) : i.output = none ∨ ∃ file, i.files = [file] := by
  cases h with
  | @intro rest files outputs command reads =>
      rcases reads.of_not_misused hused with ⟨hfiles, hseveral⟩
      -- With an output path there are not several files, and there always is one.
      by_cases houtputs : outputs = []
      · rw [houtputs]
        exact Or.inl rfl
      · have hone : ¬ 1 < files.length := fun hseveral' => hseveral ⟨houtputs, hseveral'⟩
        have hpositive := List.length_pos_iff.mpr hfiles
        have hlength : files.length = 1 := by omega
        exact Or.inr (List.length_eq_one_iff.mp hlength)

namespace Invocation

section

variable {name : String} {rest files outputs : List String}
  (hname : ¬ (name = "--help" ∨ name = "-h"))
include hname

theorem parse_of_open {option : String} (h : Open rest option) :
    parse (name :: rest) = .error (.missingPath option) := by
  rw [parse, if_neg hname, sort_of_open h]
  rfl

/-- What arguments ask for once they can be read: files are missed first, then one file
    too many, and an unknown command last. -/
theorem parse_of_reads (h : Reads rest files outputs) :
    parse (name :: rest) =
      if files = [] then .error .noFiles
      else if outputs ≠ [] ∧ 1 < files.length then .error .severalFiles
      else
        match Command.ofName? name with
        | some command => .ok ⟨command, files, outputs.getLast?⟩
        | none => .error (.unknownCommand name) := by
  rw [parse, if_neg hname, sort_of_reads h]
  have hoption : outputs.getLast?.isSome = true ↔ outputs ≠ [] := List.getLast?_isSome
  simp only [bind, Except.bind, List.nil_append, Option.or_none]
  -- The two sides differ only in how the same question is asked.
  exact if_congr Iff.rfl rfl (if_congr (and_congr_left fun _ => hoption) rfl rfl)

end

/-- Misused arguments ask for nothing. -/
theorem parse_of_misused {args : List String} (h : Misused args) :
    ∃ e, parse args = .error e := by
  -- Whatever else is wrong, a question for help is answered first.
  have hunless {name : String} {rest : List String}
      (h : ¬ (name = "--help" ∨ name = "-h") → ∃ e, parse (name :: rest) = .error e) :
      ∃ e, parse (name :: rest) = .error e := by
    by_cases hname : name = "--help" ∨ name = "-h"
    · exact ⟨.help, by rw [parse, if_pos hname]⟩
    · exact h hname
  cases h with
  | nothing => exact ⟨.help, rfl⟩
  | help asks => exact hunless fun hname => absurd asks hname
  | missingPath ends => exact hunless fun hname => ⟨_, parse_of_open hname ends⟩
  | noFiles reads =>
      exact hunless fun hname => ⟨.noFiles, by rw [parse_of_reads hname reads, if_pos rfl]⟩
  | severalFiles reads output several =>
      have hfiles := List.length_pos_iff.mp (Nat.lt_of_succ_lt several)
      exact hunless fun hname => ⟨.severalFiles,
        by rw [parse_of_reads hname reads, if_neg hfiles, if_pos ⟨output, several⟩]⟩
  | @unknownCommand name rest render dump =>
      refine hunless fun hname => ?_
      rcases reads_or_open rest with ⟨files, outputs, reads⟩ | ⟨option, ends⟩
      · rw [parse_of_reads hname reads, Command.ofName?_eq_none_iff.mpr ⟨render, dump⟩]
        split_ifs
        · exact ⟨_, rfl⟩
        · exact ⟨_, rfl⟩
        · exact ⟨_, rfl⟩
      · exact ⟨_, parse_of_open hname ends⟩

/-- Arguments are misused and ask for nothing, or they are not and ask for something. -/
theorem parse_cases (args : List String) :
    (∃ e, parse args = .error e) ∧ Misused args ∨
      ∃ i, parse args = .ok i ∧ Asks args i ∧ ¬ Misused args := by
  have hused {i : Invocation} (hok : parse args = .ok i) : ¬ Misused args := by
    intro h
    rcases parse_of_misused h with ⟨e, herror⟩
    rw [hok] at herror
    exact nomatch herror
  have hmisused (h : Misused args) : (∃ e, parse args = .error e) ∧ Misused args :=
    ⟨parse_of_misused h, h⟩
  -- The mistakes are tried in the order in which they are noticed.
  cases args with
  | nil => exact Or.inl (hmisused .nothing)
  | cons name rest =>
      by_cases hname : name = "--help" ∨ name = "-h"
      · exact Or.inl (hmisused (.help hname))
      · rcases reads_or_open rest with ⟨files, outputs, reads⟩ | ⟨option, ends⟩
        · have hparse := parse_of_reads hname reads
          by_cases hfiles : files = []
          · rw [hfiles] at reads
            exact Or.inl (hmisused (.noFiles reads))
          · by_cases hseveral : outputs ≠ [] ∧ 1 < files.length
            · exact Or.inl (hmisused (.severalFiles reads hseveral.1 hseveral.2))
            · rw [if_neg hfiles, if_neg hseveral] at hparse
              cases hcommand : Command.ofName? name with
              | none =>
                  rcases Command.ofName?_eq_none_iff.mp hcommand with ⟨hrender, hdump⟩
                  exact Or.inl (hmisused (.unknownCommand hrender hdump))
              | some command =>
                  rw [hcommand] at hparse
                  have hasks : Asks (name :: rest) ⟨command, files, outputs.getLast?⟩ := by
                    rw [Command.ofName?_eq_some_iff.mp hcommand]
                    exact .intro command reads
                  exact Or.inr ⟨_, hparse, hasks, hused hparse⟩
        · exact Or.inl (hmisused (.missingPath ends))

/-- What arguments ask for is what they are taken to ask for. -/
theorem parse_of_asks {args : List String} {i : Invocation} (h : Asks args i)
    (hused : ¬ Misused args) : parse args = .ok i := by
  cases h with
  | @intro rest files outputs command reads =>
      -- Not being misused is just what the checks on the way ask for.
      rcases reads.of_not_misused hused with ⟨hfiles, hseveral⟩
      rw [parse_of_reads command.not_help reads, if_neg hfiles, if_neg hseveral,
        Command.ofName?_eq_some_iff.mpr rfl]

end Invocation

end SourceTexture
