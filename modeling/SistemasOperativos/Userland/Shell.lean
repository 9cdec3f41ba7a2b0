import Mathlib.Data.List.Basic
import SistemasOperativos.Kernel.StringComparison

/-!
# The commands of the shell

`parser` and `asyncParser` of `SHELL/shell.c` on the buffer a line was typed into. Behind the
terminator of the line the buffer holds what earlier, longer lines left there, and `echo` and
`man` look for their argument one byte behind their name. `parse_unread_iff` says for which lines
the leftovers make no difference.
-/

namespace SistemasOperativos.Userland.Shell

open Foundation Kernel

/-- The byte of a character constant. -/
def ascii (c : Char) : UInt8 := c.toNat.toUInt8

/-- The characters of a string literal. -/
def literal (string : String) : List UInt8 := string.toList.map ascii

/-- The functions behind the commands, with what each is called with. A thread gets it as a
quadword, which holds a pointer or a pid as it is. -/
inductive Handler (text : Type)
  | helpShell
  | clearShell
  | printProcesses
  | echoShellON
  | echoShellOFF
  | killProcess (pid : Int)
  | man (buffer : text)
  | while1
  | ls

/-- What the shell does with a line: it calls a handler, or starts a thread that runs it
(system call 12), or runs a program, or reports an error. -/
inductive Action (text : Type)
  | call (handler : Handler text)
  | thread (handler : Handler text)
  | run (c : text)
  | error (buffer : text)
  | asyncError (buffer : text)
  | nothing

/-- `*(buffer + 4) - '0'`, the argument of `kill`. -/
def killArgument (buffer : Nat → UInt8) : Int := charValue (buffer 4) - charValue (ascii '0')

/-- `asyncParser`: the line behind an ampersand. -/
def asyncParser (buffer : Nat → UInt8) : Action (Nat → UInt8) :=
  if strcmp (literal "help") buffer = 0 then .thread .helpShell
  else if strcmp (literal "clear") buffer = 0 then .thread .clearShell
  else if strcmp (literal "ps") buffer = 0 then .thread .printProcesses
  else if strcmpN (literal "echo") buffer 4 = 0 then
    if strcmp (literal "on") (CString.advance buffer 5) = 0 then .thread .echoShellON
    else .thread .echoShellOFF
  else if strcmpN (literal "kill") buffer 4 = 0 then .thread (.killProcess (killArgument buffer))
  else if buffer 0 = ascii '.' ∧ buffer 1 = ascii '/' then .run (CString.advance buffer 2)
  else if strcmpN (literal "man") buffer 3 = 0 then .thread (.man (CString.advance buffer 4))
  else if strcmp (literal "ls") buffer = 0 then .thread .ls
  else if strcmp (literal "while1") buffer = 0 then .thread .while1
  else if buffer 0 = ascii '\n' then .nothing
  else .asyncError buffer

/-- `parser`, which hands a line that starts with an ampersand to `asyncParser`. The flag
`isAsynchronicCall` that it sets is read nowhere. -/
def parser (buffer : Nat → UInt8) : Action (Nat → UInt8) :=
  if buffer 0 = ascii '&' then asyncParser (CString.advance buffer 1)
  else if strcmp (literal "help") buffer = 0 then .call .helpShell
  else if strcmp (literal "clear") buffer = 0 then .call .clearShell
  else if strcmp (literal "ps") buffer = 0 then .call .printProcesses
  else if strcmpN (literal "echo") buffer 4 = 0 then
    if strcmp (literal "on") (CString.advance buffer 5) = 0 then .call .echoShellON
    else .call .echoShellOFF
  else if strcmpN (literal "kill") buffer 4 = 0 then .call (.killProcess (killArgument buffer))
  else if buffer 0 = ascii '.' ∧ buffer 1 = ascii '/' then .run (CString.advance buffer 2)
  else if strcmpN (literal "man") buffer 3 = 0 then .call (.man (CString.advance buffer 4))
  else if strcmp (literal "while1") buffer = 0 then .call .while1
  else if strcmp (literal "ls") buffer = 0 then .call .ls
  else if buffer 0 = ascii '\n' then .nothing
  else .error buffer

/-- `man`: the page it prints. -/
def man (buffer : Nat → UInt8) : String :=
  if strcmp (literal "help") buffer = 0 then "HELP\n use this comand to see all the comands"
  else if strcmp (literal "clear") buffer = 0 then "CLEAR\n clear the video use by the shell"
  else if strcmp (literal "echo") buffer = 0 then
    "ECHO\n Use \"echo on\" to turn on the echo and \"echo off\" to turn it off  "
  else if strcmp (literal "ls") buffer = 0 then "LS\n display all programs"
  else if strcmp (literal "ps") buffer = 0 then "ps\n list all current processes"
  else if strcmp (literal "&") buffer = 0 then
    "&\n run a command in background. Use: &command"
  else if strcmp (literal "./") buffer = 0 then "./\n run a program. Use: ./programName"
  else "invalid command for man"

/-- `run`: the arguments of the system call that starts the program (system call 7), none where
`runError` reports that there is no such program. It turns the echo on in either case. -/
def run (c : Nat → UInt8) : Option (Nat × Nat) :=
  if strcmp (literal "prodCons") c = 0 then some (1, 1)
  else if strcmp (literal "pipeTest") c = 0 then some (1, 2)
  else if strcmp (literal "philosophers") c = 0 then some (1, 4)
  else if strcmp (literal "editor") c = 0 then some (2, 0)
  else if strcmp (literal "fortune") c = 0 then some (3, 0)
  else if strcmp (literal "pagefault") c = 0 then some (5, 0)
  else none

/-! ## Arguments as strings -/

/-- The handler with its argument read as the string it points to. -/
def Handler.read : Handler (Nat → UInt8) → Handler (Nat → Option UInt8)
  | helpShell => helpShell
  | clearShell => clearShell
  | printProcesses => printProcesses
  | echoShellON => echoShellON
  | echoShellOFF => echoShellOFF
  | killProcess pid => killProcess pid
  | man buffer => man (CString.text buffer)
  | while1 => while1
  | ls => ls

/-- The action with its arguments read as the strings they point to. -/
def Action.read : Action (Nat → UInt8) → Action (Nat → Option UInt8)
  | call handler => call handler.read
  | thread handler => thread handler.read
  | run c => run (CString.text c)
  | error buffer => error (CString.text buffer)
  | asyncError buffer => asyncError (CString.text buffer)
  | nothing => nothing

/-! ## What a line leaves to its leftovers -/

section Line

variable {line : CString}

/-- Behind a part of the line that ends in front of its terminator, the rest of the line lies. -/
theorem advance_line {front back : List UInt8} (parts : line.chars = front ++ back) :
    ∃ rest : CString, rest.chars = back ∧ ∀ leftover,
      CString.advance (CString.cells line.chars leftover) front.length =
        CString.cells rest.chars leftover := by
  have nonzero : ∀ c ∈ back, c ≠ 0 := fun c member =>
    line.nonzero c (parts ▸ List.mem_append_right front member)
  refine ⟨⟨back, nonzero⟩, rfl, fun leftover => ?_⟩
  rw [parts, CString.advance_cells]

/-- The argument one byte behind a command lies in the line, unless the line ends with the
command. -/
theorem argument_in_line {word : List UInt8} (starts : word <+: line.chars)
    (longer : line.chars ≠ word) :
    ∃ rest : CString, ∀ leftover,
      CString.advance (CString.cells line.chars leftover) (word.length + 1) =
        CString.cells rest.chars leftover := by
  obtain ⟨back, parts⟩ := starts
  cases back with
  | nil => exact absurd (parts.symm.trans (List.append_nil word)) longer
  | cons c back =>
      have split : line.chars = (word ++ [c]) ++ back := by
        rw [List.append_assoc, ← parts]
        rfl
      obtain ⟨rest, _, advanced⟩ := advance_line split
      rw [List.length_append] at advanced
      exact ⟨rest, advanced⟩

/-- The two bytes in front of the name of a program are those of the line. -/
theorem program_iff {leftover : Nat → UInt8} :
    (CString.cells line.chars leftover 0 = ascii '.' ∧
      CString.cells line.chars leftover 1 = ascii '/') ↔ literal "./" <+: line.chars := by
  constructor
  · rintro ⟨dot, slash⟩
    match chars : line.chars, dot, slash with
    | [c], _, slash => exact absurd slash (show (0 : UInt8) ≠ ascii '/' from by decide)
    | c :: d :: back, dot, slash => exact ⟨back, congrArg₂ (· :: · :: back) dot.symm slash.symm⟩
  · rintro ⟨back, parts⟩
    rw [← parts]
    exact ⟨rfl, rfl⟩

/-! ## Two runs on one line -/

variable {leftover other : Nat → UInt8}

theorem equals_same {word : List UInt8} :
    strcmp word (CString.cells line.chars leftover) = 0 ↔
      strcmp word (CString.cells line.chars other) = 0 :=
  strcmp_eq_zero.trans strcmp_eq_zero.symm

theorem starts_same {word : List UInt8} {number : Int} (counted : number = word.length) :
    strcmpN word (CString.cells line.chars leftover) number = 0 ↔
      strcmpN word (CString.cells line.chars other) number = 0 :=
  (strcmpN_eq_zero counted).trans (strcmpN_eq_zero counted).symm

theorem program_same :
    (CString.cells line.chars leftover 0 = ascii '.' ∧
      CString.cells line.chars leftover 1 = ascii '/') ↔
      (CString.cells line.chars other 0 = ascii '.' ∧
        CString.cells line.chars other 1 = ascii '/') :=
  program_iff.trans program_iff.symm

theorem first_same : CString.cells line.chars leftover 0 = CString.cells line.chars other 0 := by
  cases line.chars <;> rfl

theorem text_same :
    CString.text (CString.cells line.chars leftover) =
      CString.text (CString.cells line.chars other) := by
  rw [CString.text_cells line.nonzero, CString.text_cells line.nonzero]

/-- Two choices read the same if their conditions agree and what is chosen reads the same. -/
theorem read_ite {p q : Prop} [Decidable p] [Decidable q] {a b c d : Action (Nat → UInt8)}
    (same : p ↔ q) (yes : p → a.read = b.read) (no : c.read = d.read) :
    (if p then a else c).read = (if q then b else d).read := by
  by_cases holds : p
  · rw [if_pos holds, if_pos (same.mp holds), yes holds]
  · rw [if_neg holds, if_neg (mt same.mpr holds), no]

/-- `kill` reads the byte behind its name, which is in the line or is its terminator. -/
theorem killArgument_same (starts : literal "kill" <+: line.chars) :
    killArgument (CString.cells line.chars leftover) =
      killArgument (CString.cells line.chars other) := by
  obtain ⟨back, parts⟩ := starts
  obtain ⟨rest, -, advanced⟩ := advance_line parts.symm
  have digit : CString.cells line.chars leftover 4 = CString.cells line.chars other 4 :=
    calc CString.cells line.chars leftover 4
        = CString.cells rest.chars leftover 0 := congrFun (advanced leftover) 0
      _ = CString.cells rest.chars other 0 := first_same
      _ = CString.cells line.chars other 4 := (congrFun (advanced other) 0).symm
  rw [killArgument, killArgument, digit]

/-- The name of a program is in the line. -/
theorem program_text (starts : literal "./" <+: line.chars) :
    CString.text (CString.advance (CString.cells line.chars leftover) 2) =
      CString.text (CString.advance (CString.cells line.chars other) 2) := by
  obtain ⟨back, parts⟩ := starts
  obtain ⟨rest, -, advanced⟩ := advance_line parts.symm
  calc CString.text (CString.advance (CString.cells line.chars leftover) 2)
      = CString.text (CString.cells rest.chars leftover) :=
        congrArg CString.text (advanced leftover)
    _ = CString.text (CString.cells rest.chars other) := text_same
    _ = CString.text (CString.advance (CString.cells line.chars other) 2) :=
        congrArg CString.text (advanced other).symm

/-- The argument of `man` is in the line, if the line is longer than the name. -/
theorem page_text (starts : literal "man" <+: line.chars) (longer : line.chars ≠ literal "man") :
    CString.text (CString.advance (CString.cells line.chars leftover) 4) =
      CString.text (CString.advance (CString.cells line.chars other) 4) := by
  obtain ⟨rest, advanced⟩ := argument_in_line starts longer
  calc CString.text (CString.advance (CString.cells line.chars leftover) 4)
      = CString.text (CString.cells rest.chars leftover) :=
        congrArg CString.text (advanced leftover)
    _ = CString.text (CString.cells rest.chars other) := text_same
    _ = CString.text (CString.advance (CString.cells line.chars other) 4) :=
        congrArg CString.text (advanced other).symm

/-- What `echo` compares with `on` is in the line, if the line is longer than the name. -/
theorem echo_same (starts : literal "echo" <+: line.chars)
    (longer : line.chars ≠ literal "echo") :
    strcmp (literal "on") (CString.advance (CString.cells line.chars leftover) 5) = 0 ↔
      strcmp (literal "on") (CString.advance (CString.cells line.chars other) 5) = 0 := by
  obtain ⟨rest, advanced⟩ := argument_in_line starts longer
  have switch : strcmp (literal "on") (CString.cells rest.chars leftover) = 0 ↔
      strcmp (literal "on") (CString.cells rest.chars other) = 0 := equals_same
  rwa [← advanced, ← advanced] at switch

/-- The tests that `parser` and `asyncParser` make alike, with what each does with a handler. -/
def dispatch (start : Handler (Nat → UInt8) → Action (Nat → UInt8)) (buffer : Nat → UInt8)
    (otherwise : Action (Nat → UInt8)) : Action (Nat → UInt8) :=
  if strcmp (literal "help") buffer = 0 then start .helpShell
  else if strcmp (literal "clear") buffer = 0 then start .clearShell
  else if strcmp (literal "ps") buffer = 0 then start .printProcesses
  else if strcmpN (literal "echo") buffer 4 = 0 then
    if strcmp (literal "on") (CString.advance buffer 5) = 0 then start .echoShellON
    else start .echoShellOFF
  else if strcmpN (literal "kill") buffer 4 = 0 then start (.killProcess (killArgument buffer))
  else if buffer 0 = ascii '.' ∧ buffer 1 = ascii '/' then .run (CString.advance buffer 2)
  else if strcmpN (literal "man") buffer 3 = 0 then start (.man (CString.advance buffer 4))
  else otherwise

/-- The common tests choose alike in two runs on one line. -/
theorem dispatch_read {start : Handler (Nat → UInt8) → Action (Nat → UInt8)}
    {rest otherRest : Action (Nat → UInt8)} (notEcho : line.chars ≠ literal "echo")
    (notMan : line.chars ≠ literal "man")
    (started : ∀ {first second : Handler (Nat → UInt8)}, first.read = second.read →
      (start first).read = (start second).read)
    (same : rest.read = otherRest.read) :
    (dispatch start (CString.cells line.chars leftover) rest).read =
      (dispatch start (CString.cells line.chars other) otherRest).read := by
  refine read_ite equals_same (fun _ => rfl) ?_
  refine read_ite equals_same (fun _ => rfl) ?_
  refine read_ite equals_same (fun _ => rfl) ?_
  refine read_ite (starts_same rfl) (fun starts => ?_) ?_
  · exact read_ite (echo_same ((strcmpN_eq_zero rfl).mp starts) notEcho) (fun _ => rfl) rfl
  refine read_ite (starts_same rfl) (fun starts => started ?_) ?_
  · exact congrArg Handler.killProcess (killArgument_same ((strcmpN_eq_zero rfl).mp starts))
  refine read_ite program_same (fun isProgram => ?_) ?_
  · exact congrArg Action.run (program_text (program_iff.mp isProgram))
  refine read_ite (starts_same rfl) (fun starts => started ?_) same
  exact congrArg Handler.man (page_text ((strcmpN_eq_zero rfl).mp starts) notMan)

/-- Apart from the two bare names, two runs of `asyncParser` on one line do the same. -/
theorem asyncParser_read (notEcho : line.chars ≠ literal "echo")
    (notMan : line.chars ≠ literal "man") :
    (asyncParser (CString.cells line.chars leftover)).read =
      (asyncParser (CString.cells line.chars other)).read := by
  apply dispatch_read notEcho notMan (congrArg Action.thread)
  refine read_ite equals_same (fun _ => rfl) ?_
  refine read_ite equals_same (fun _ => rfl) ?_
  refine read_ite (iff_of_eq (congrArg (· = ascii '\n') first_same)) (fun _ => rfl) ?_
  exact congrArg Action.asyncError text_same

/-- A line that starts with an ampersand is one for `asyncParser`. -/
theorem parser_ampersand (leftover : Nat → UInt8) (back : List UInt8) :
    parser (CString.cells (ascii '&' :: back) leftover) =
      asyncParser (CString.cells back leftover) :=
  if_pos rfl

/-- A line without an ampersand starts with another byte, or ends at once. -/
theorem first_ne_ampersand (notAmpersand : line.chars.head? ≠ some (ascii '&'))
    (leftover : Nat → UInt8) : CString.cells line.chars leftover 0 ≠ ascii '&' := by
  intro first
  match chars : line.chars, first with
  | [], first => exact absurd first (show (0 : UInt8) ≠ ascii '&' from by decide)
  | c :: back, first => exact notAmpersand (chars ▸ congrArg some first)

/-- So do two runs of `parser` on a line without an ampersand. -/
theorem parser_read (notAmpersand : line.chars.head? ≠ some (ascii '&'))
    (notEcho : line.chars ≠ literal "echo") (notMan : line.chars ≠ literal "man") :
    (parser (CString.cells line.chars leftover)).read =
      (parser (CString.cells line.chars other)).read := by
  unfold parser
  rw [if_neg (first_ne_ampersand notAmpersand leftover),
    if_neg (first_ne_ampersand notAmpersand other)]
  apply dispatch_read notEcho notMan (congrArg Action.call)
  refine read_ite equals_same (fun _ => rfl) ?_
  refine read_ite equals_same (fun _ => rfl) ?_
  refine read_ite (iff_of_eq (congrArg (· = ascii '\n') first_same)) (fun _ => rfl) ?_
  exact congrArg Action.error text_same

/-! ## Which lines are the whole of what is read -/

/-- What a line does is the same whatever is left behind it. -/
def Unread (parse : (Nat → UInt8) → Action (Nat → UInt8)) (line : CString) : Prop :=
  ∀ leftover other, (parse (CString.cells line.chars leftover)).read =
    (parse (CString.cells line.chars other)).read

/-- The commands that read their argument one byte behind their name. -/
def bareCommands : List (List UInt8) := [literal "echo", literal "man"]

theorem mem_bareCommands {chars : List UInt8} :
    chars ∈ bareCommands ↔ chars = literal "echo" ∨ chars = literal "man" := by
  simp [bareCommands]

theorem page_differs : CString.text (fun _ => 1) ≠ CString.text fun _ => 0 :=
  fun same => absurd (congrFun same 0) (by decide)

/-- A function that reads on behind the two names finds other arguments in other leftovers. -/
theorem not_bare_of_unread {parse : (Nat → UInt8) → Action (Nat → UInt8)}
    (unread : Unread parse line)
    (switched : (parse (CString.cells (literal "echo")
        (CString.cells (literal "on") fun _ => 0))).read ≠
      (parse (CString.cells (literal "echo") fun _ => 0)).read)
    (paged : (parse (CString.cells (literal "man") fun _ => 1)).read ≠
      (parse (CString.cells (literal "man") fun _ => 0)).read) :
    line.chars ∉ bareCommands := by
  intro bare
  rcases mem_bareCommands.mp bare with name | name
  · exact switched (name ▸ unread _ _)
  · exact paged (name ▸ unread _ _)

/-- Behind an ampersand, the line is all that is read unless it is the bare name of `echo` or of
`man`. -/
theorem asyncParser_unread_iff : Unread asyncParser line ↔ line.chars ∉ bareCommands := by
  constructor
  · intro unread
    apply not_bare_of_unread unread
    · exact fun same => nomatch same
    · exact fun same => page_differs (Handler.man.inj (Action.thread.inj same))
  · intro notBare leftover other
    exact asyncParser_read (fun echo => notBare (mem_bareCommands.mpr (.inl echo)))
      fun man => notBare (mem_bareCommands.mpr (.inr man))

/-- With an ampersand in front, the line is all that is read if it is behind the ampersand. -/
theorem parser_unread_ampersand {back : CString} (chars : line.chars = ascii '&' :: back.chars) :
    Unread parser line ↔ Unread asyncParser back := by
  unfold Unread
  simp only [chars, parser_ampersand]

/-- Without one, the line is all that is read unless it is one of the two names. -/
theorem parser_unread_plain (notAmpersand : line.chars.head? ≠ some (ascii '&')) :
    Unread parser line ↔ line.chars ∉ bareCommands := by
  constructor
  · intro unread
    apply not_bare_of_unread unread
    · exact fun same => nomatch same
    · exact fun same => page_differs (Handler.man.inj (Action.call.inj same))
  · intro notBare leftover other
    exact parser_read notAmpersand (fun echo => notBare (mem_bareCommands.mpr (.inl echo)))
      fun man => notBare (mem_bareCommands.mpr (.inr man))

end Line

/-- What the shell does with a line depends on the line alone if and only if the line is neither
`echo` nor `man`, nor, for `parser`, one of them behind an ampersand. -/
theorem parse_unread_iff (line : CString) :
    (Unread parser line ↔
      line.chars ∉ bareCommands ∧ line.chars ∉ bareCommands.map (ascii '&' :: ·)) ∧
    (Unread asyncParser line ↔ line.chars ∉ bareCommands) := by
  refine ⟨?_, asyncParser_unread_iff⟩
  by_cases ampersand : line.chars.head? = some (ascii '&')
  · obtain ⟨back, chars⟩ : ∃ back : CString, line.chars = ascii '&' :: back.chars := by
      match parts : line.chars, ampersand with
      | c :: back, first =>
          have nonzero : ∀ d ∈ back, d ≠ 0 := fun d member =>
            line.nonzero d (parts ▸ List.mem_cons_of_mem c member)
          exact ⟨⟨back, nonzero⟩, congrArg (· :: back) (Option.some.inj first)⟩
    have plain : line.chars ∉ bareCommands := by
      intro bare
      rcases mem_bareCommands.mp bare with name | name <;> rw [name] at ampersand <;>
        exact absurd ampersand (by decide)
    rw [parser_unread_ampersand chars, asyncParser_unread_iff, and_iff_right plain, chars,
      List.mem_map_of_injective List.cons_injective]
  · rw [parser_unread_plain ampersand]
    refine (and_iff_left fun member => ?_).symm
    obtain ⟨back, _, chars⟩ := List.mem_map.mp member
    exact ampersand (chars ▸ rfl)

/-- The line `echo` turns the echo on behind an `echo on` and off behind an `echo off`. -/
theorem echo_reads_leftovers :
    (parser (CString.cells (literal "echo") (CString.cells (literal "on") fun _ => 0))).read =
      .call .echoShellON ∧
    (parser (CString.cells (literal "echo") (CString.cells (literal "off") fun _ => 0))).read =
      .call .echoShellOFF ∧
    ¬ ∀ line : CString, Unread parser line ∧ Unread asyncParser line := by
  have on : (parser (CString.cells (literal "echo")
      (CString.cells (literal "on") fun _ => 0))).read = .call .echoShellON := rfl
  have off : (parser (CString.cells (literal "echo")
      (CString.cells (literal "off") fun _ => 0))).read = .call .echoShellOFF := rfl
  refine ⟨on, off, fun unread => ?_⟩
  have same := (unread (CString.ofBytes (literal "echo"))).1
    (CString.cells (literal "on") fun _ => 0) (CString.cells (literal "off") fun _ => 0)
  exact nomatch on.symm.trans (same.trans off)

end SistemasOperativos.Userland.Shell
