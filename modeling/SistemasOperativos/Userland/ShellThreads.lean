import SistemasOperativos.Kernel.PutNumber
import SistemasOperativos.Kernel.SystemCalls
import SistemasOperativos.Userland.Shell

/-!
# Commands in threads of their own

A line behind an ampersand starts a thread by system call 12 where the line itself calls the
handler. `BuiltIn` lists the commands with their handlers. The two parsers test in different
orders, but find the same command in every line (`ampersand_counterpart`).

The argument of `kill` is one character, so of a pid with more digits only the first one counts
(`kill_removes_iff`).
-/

namespace SistemasOperativos.Userland.Shell

open Foundation Kernel
open scoped Kernel.Scheduler

/-! ## From a line to a thread -/

/-- The functions of the shell that a thread can run. -/
inductive ShellFunction
  | helpShell
  | clearShell
  | printProcesses
  | echoShellON
  | echoShellOFF
  | killProcess
  | man
  | while1
  | ls
  deriving DecidableEq, Repr

/-- The function behind a handler. -/
def Handler.function {text : Type} : Handler text → ShellFunction
  | helpShell => .helpShell
  | clearShell => .clearShell
  | printProcesses => .printProcesses
  | echoShellON => .echoShellON
  | echoShellOFF => .echoShellOFF
  | killProcess _ => .killProcess
  | man _ => .man
  | while1 => .while1
  | ls => .ls

/-- The argument that `asyncParser` hands to the system call for the line at `buffer`. -/
def Handler.qargs {text : Type} (buffer : Nat) : Handler text → Nat
  | killProcess pid => toQword pid
  | man _ => buffer + 4
  | _ => 0

/-- A function called with the argument of a thread. -/
def ShellFunction.handler (memory : Nat → UInt8) (args : Nat) :
    ShellFunction → Handler (Nat → UInt8)
  | helpShell => .helpShell
  | clearShell => .clearShell
  | printProcesses => .printProcesses
  | echoShellON => .echoShellON
  | echoShellOFF => .echoShellOFF
  | killProcess => .killProcess (toInt32 args)
  | man => .man (CString.advance memory args)
  | while1 => .while1
  | ls => .ls

/-- The functions of the shell in memory, each at an address of its own. -/
structure Code where
  address : ShellFunction → Nat
  distinct : Function.Injective address

/-- The functions in the order of their declaration. -/
def functions : List ShellFunction :=
  [.helpShell, .clearShell, .printProcesses, .echoShellON, .echoShellOFF, .killProcess, .man,
    .while1, .ls]

/-- What a thread that starts from a frame calls. -/
def Code.called (code : Code) (memory : Nat → UInt8) (frame : StackFrame) :
    Option (Handler (Nat → UInt8)) :=
  (functions.find? fun function => code.address function = frame.call.1).map fun function =>
    function.handler memory frame.call.2

/-- System call 12, made for a handler while the line is at `buffer`. -/
def startThread {text : Type} (code : Code) (m : Threads) (buffer : Nat)
    (handler : Handler text) : Option (Threads × Int) :=
  m.sys_call_createThread (code.address handler.function) (handler.qargs buffer)

/-- The system call added a thread to the current process that calls the handler. -/
def Calls (code : Code) (memory : Nat → UInt8) (m m' : Threads)
    (handler : Handler (Nat → UInt8)) : Prop :=
  ∃ frame, m.Started m' m.getCurrentProcess frame ∧ code.called memory frame = some handler

/-- The new thread calls one handler only. -/
theorem Calls.unique {code : Code} {memory : Nat → UInt8} {m m' : Threads}
    {handler handler' : Handler (Nat → UInt8)} (calls : Calls code memory m m' handler)
    (calls' : Calls code memory m m' handler') : handler = handler' := by
  obtain ⟨frame, started, called⟩ := calls
  obtain ⟨frame', started', called'⟩ := calls'
  obtain rfl := started.unique started'
  exact Option.some.inj (called.symm.trans called')

/-- The address of a function leads to it. -/
theorem Code.called_eq (code : Code) (memory : Nat → UInt8) (function : ShellFunction)
    (args : Nat) :
    code.called memory
        ⟨code.address function, code.address function, args, args⟩ =
      some (function.handler memory args) := by
  have same : ∀ f, code.address f = code.address function ↔ f = function :=
    fun f => code.distinct.eq_iff
  simp only [Code.called, StackFrame.call, callProcess, same]
  cases function <;> rfl

/-- The argument of `kill` is the difference of two characters. -/
theorem killArgument_range (buffer : Nat → UInt8) :
    -2 ^ 31 ≤ killArgument buffer ∧ killArgument buffer < 2 ^ 31 := by
  have low := (buffer 4).toInt8.le_toInt
  have high := (buffer 4).toInt8.toInt_lt
  have zero : charValue (ascii '0') = 48 := by decide
  rw [killArgument, zero, charValue]
  omega

/-- The argument of a handler is the one behind its name. -/
def Handler.Of (buffer : Nat → UInt8) : Handler (Nat → UInt8) → Prop
  | killProcess pid => pid = killArgument buffer
  | man page => page = CString.advance buffer 4
  | _ => True

/-- If the action starts a thread, then for a handler with the argument of the line. -/
def Action.Of (buffer : Nat → UInt8) : Action (Nat → UInt8) → Prop
  | thread handler => handler.Of buffer
  | _ => True

theorem Action.of_ite {buffer : Nat → UInt8} {p : Prop} [Decidable p]
    {yes no : Action (Nat → UInt8)} (first : yes.Of buffer) (second : no.Of buffer) :
    (if p then yes else no).Of buffer := by
  split
  · exact first
  · exact second

/-- `asyncParser` takes the argument from the line. -/
theorem asyncParser_of (buffer : Nat → UInt8) : (asyncParser buffer).Of buffer := by
  unfold asyncParser
  refine Action.of_ite trivial ?_
  refine Action.of_ite trivial ?_
  refine Action.of_ite trivial ?_
  refine Action.of_ite (Action.of_ite trivial trivial) ?_
  refine Action.of_ite rfl ?_
  refine Action.of_ite trivial ?_
  refine Action.of_ite rfl ?_
  refine Action.of_ite trivial ?_
  refine Action.of_ite trivial ?_
  exact Action.of_ite trivial trivial

/-- The memory from one place on, and on from another behind it. -/
theorem advance_advance (memory : Nat → UInt8) (count more : Nat) :
    CString.advance (CString.advance memory count) more =
      CString.advance memory (count + more) := by
  funext index
  exact congrArg memory (by omega)

/-- A thread gets the argument that is in the line. -/
theorem Handler.Of.handler {memory : Nat → UInt8} {buffer : Nat}
    {handler : Handler (Nat → UInt8)} (ofLine : handler.Of (CString.advance memory buffer)) :
    handler.function.handler memory (handler.qargs buffer) = handler := by
  cases handler with
  | killProcess pid =>
      have range := killArgument_range (CString.advance memory buffer)
      rw [← show pid = _ from ofLine] at range
      exact congrArg Handler.killProcess (toInt32_toQword range.1 range.2)
  | man page =>
      have whole : CString.advance memory (buffer + 4) = page :=
        (advance_advance memory buffer 4).symm.trans ofLine.symm
      exact congrArg Handler.man whole
  | _ => rfl

/-- The system call adds a thread that calls the handler, unless it cannot add one. -/
theorem startThread_iff {memory : Nat → UInt8} {buffer : Nat}
    {handler : Handler (Nat → UInt8)}
    (parsed : asyncParser (CString.advance memory buffer) = .thread handler) (code : Code)
    (m : Threads) :
    (∃ m', startThread code m buffer handler = some (m', 0) ∧ Calls code memory m m' handler) ↔
      ¬ m.scheduler.CannotAdd m.getCurrentProcess := by
  have ofLine := asyncParser_of (CString.advance memory buffer)
  rw [parsed] at ofLine
  have called := code.called_eq memory handler.function (handler.qargs buffer)
  rw [Handler.Of.handler ofLine] at called
  constructor
  · rintro ⟨m', made, -⟩
    exact Threads.can_of_createThread made
  · intro can
    obtain ⟨m', made, started⟩ := Threads.createThread_started can
      (code.address handler.function) (handler.qargs buffer)
    exact ⟨m', made, _, started, called⟩

/-! ## The same command in both parsers -/

/-- What `parser` does with a line, and what it does with an ampersand in front of it. -/
inductive Counterpart {text : Type} : Action text → Action text → Prop
  | started (handler : Handler text) : Counterpart (.call handler) (.thread handler)
  | run (c : text) : Counterpart (.run c) (.run c)
  | rejected (buffer : text) : Counterpart (.error buffer) (.asyncError buffer)
  | nothing : Counterpart .nothing .nothing

/-- Counterparts stay so when their arguments are read. -/
theorem Counterpart.read {plain behind : Action (Nat → UInt8)}
    (counterpart : Counterpart plain behind) : Counterpart plain.read behind.read := by
  cases counterpart with
  | started handler => exact .started handler.read
  | run c => exact .run (CString.text c)
  | rejected buffer => exact .rejected (CString.text buffer)
  | nothing => exact .nothing

theorem Counterpart.ite {p : Prop} [Decidable p] {a b c d : Action (Nat → UInt8)}
    (yes : Counterpart a b) (no : Counterpart c d) :
    Counterpart (if p then a else c) (if p then b else d) := by
  split
  · exact yes
  · exact no

/-- The counterpart of a call is a thread for it. -/
theorem Counterpart.of_call {text : Type} {handler : Handler text} {behind : Action text}
    (counterpart : Counterpart (.call handler) behind) : behind = .thread handler := by
  cases counterpart
  rfl

/-- The counterpart of a program is the program. -/
theorem Counterpart.of_run {text : Type} {c : text} {behind : Action text}
    (counterpart : Counterpart (.run c) behind) : behind = .run c := by
  cases counterpart
  rfl

/-- Of two counterparts both report an error or neither does. -/
theorem Counterpart.error_iff {text : Type} {plain behind : Action text}
    (counterpart : Counterpart plain behind) :
    (∃ shown, plain = .error shown) ↔ ∃ shown, behind = .asyncError shown := by
  cases counterpart with
  | rejected buffer => exact ⟨fun _ => ⟨buffer, rfl⟩, fun _ => ⟨buffer, rfl⟩⟩
  | started handler | run c | nothing =>
      constructor
      · rintro ⟨shown, same⟩
        cases same
      · rintro ⟨shown, same⟩
        cases same

/-- The tests that both parsers make choose alike. -/
theorem dispatch_counterpart {buffer : Nat → UInt8} {plain behind : Action (Nat → UInt8)}
    (otherwise : Counterpart plain behind) :
    Counterpart (dispatch .call buffer plain) (dispatch .thread buffer behind) := by
  unfold dispatch
  apply Counterpart.ite (.started _)
  apply Counterpart.ite (.started _)
  apply Counterpart.ite (.started _)
  apply Counterpart.ite (.ite (.started _) (.started _))
  apply Counterpart.ite (.started _)
  apply Counterpart.ite (.run _)
  exact Counterpart.ite (.started _) otherwise

/-- No string is the name of two commands. -/
theorem while1_ne_ls {line : CString} {leftover : Nat → UInt8}
    (while1 : strcmp (literal "while1") (CString.cells line.chars leftover) = 0) :
    strcmp (literal "ls") (CString.cells line.chars leftover) ≠ 0 := by
  rw [strcmp_eq_zero] at while1
  rw [ne_eq, strcmp_eq_zero, ← while1]
  decide

/-- On one line, `parser` calls the handler that `asyncParser` starts a thread for. -/
theorem parser_counterpart {line : CString} (plain : line.chars.head? ≠ some (ascii '&'))
    (leftover : Nat → UInt8) :
    Counterpart (parser (CString.cells line.chars leftover))
      (asyncParser (CString.cells line.chars leftover)) := by
  unfold parser
  rw [if_neg (first_ne_ampersand plain leftover)]
  apply dispatch_counterpart
  -- The last two names are tested in opposite orders.
  by_cases while1 : strcmp (literal "while1") (CString.cells line.chars leftover) = 0
  · rw [if_pos while1, if_neg (while1_ne_ls while1), if_pos while1]
    exact .started .while1
  · rw [if_neg while1, if_neg while1]
    exact Counterpart.ite (.started _) (.ite .nothing (.rejected _))

/-! ## What the commands are -/

/-- The string one byte behind `echo` is `on`. -/
def SwitchesOn (buffer : Nat → UInt8) : Prop :=
  CString.text (CString.advance buffer 5) = fun index => (literal "on")[index]?

/-- The built-in commands, by the lines that name them, each with its handler and the argument
for it. `echo`, `kill` and `man` are found by the start of the line, the other names only where
they are all of it. -/
inductive BuiltIn (line : CString) (buffer : Nat → UInt8) : Handler (Nat → UInt8) → Prop
  | help (name : line.chars = literal "help") : BuiltIn line buffer .helpShell
  | clear (name : line.chars = literal "clear") : BuiltIn line buffer .clearShell
  | ps (name : line.chars = literal "ps") : BuiltIn line buffer .printProcesses
  | echoOn (name : literal "echo" <+: line.chars) (on : SwitchesOn buffer) :
    BuiltIn line buffer .echoShellON
  | echoOff (name : literal "echo" <+: line.chars) (off : ¬ SwitchesOn buffer) :
    BuiltIn line buffer .echoShellOFF
  | kill (name : literal "kill" <+: line.chars) :
    BuiltIn line buffer (.killProcess (killArgument buffer))
  | man (name : literal "man" <+: line.chars) :
    BuiltIn line buffer (.man (CString.advance buffer 4))
  | while1 (name : line.chars = literal "while1") : BuiltIn line buffer .while1
  | ls (name : line.chars = literal "ls") : BuiltIn line buffer .ls

/-- The line is no built-in command and no program, and does not start with a newline. -/
structure Unknown (line : CString) (buffer : Nat → UInt8) : Prop where
  noBuiltIn : ∀ handler, ¬ BuiltIn line buffer handler
  noProgram : ¬ literal "./" <+: line.chars
  noNewline : line.chars.head? ≠ some (ascii '\n')

/-- What is done with a line, and what with an ampersand in front of it: a built-in command is
called and started in a thread, a program is run with the same name, and what is neither is
rejected. -/
structure Answers (line : CString) (buffer : Nat → UInt8)
    (plain behind : Action (Nat → UInt8)) : Prop where
  builtIn : ∀ handler, BuiltIn line buffer handler →
    plain = .call handler ∧ behind = .thread handler
  program : literal "./" <+: line.chars →
    plain = .run (CString.advance buffer 2) ∧ behind = .run (CString.advance buffer 2)
  rejected : (∃ shown, plain = .error shown) ↔ Unknown line buffer
  rejectedBehind : (∃ shown, behind = .asyncError shown) ↔ Unknown line buffer

section Commands

variable {line : CString} {leftover : Nat → UInt8}

/-- `parser` calls the handler of a built-in command with the argument of the line. -/
theorem parser_builtIn {handler : Handler (Nat → UInt8)}
    (known : BuiltIn line (CString.cells line.chars leftover) handler) :
    parser (CString.cells line.chars leftover) = .call handler := by
  obtain ⟨chars, nonzero⟩ := line
  -- No name starts as another does, so the tests in front of the one that holds all fail.
  cases known with
  | help name | clear name | ps name | while1 name | ls name =>
      obtain rfl : chars = _ := name
      rfl
  | kill name | man name =>
      obtain ⟨back, rfl⟩ := name
      rfl
  | echoOn name on =>
      obtain ⟨back, rfl⟩ := name
      exact if_pos (strcmp_eq_zero_iff_text.mpr on)
  | echoOff name off =>
      obtain ⟨back, rfl⟩ := name
      exact if_neg (mt strcmp_eq_zero_iff_text.mp off)

/-- It runs the program that is named behind `./`. -/
theorem parser_program (name : literal "./" <+: line.chars) :
    parser (CString.cells line.chars leftover) =
      .run (CString.advance (CString.cells line.chars leftover) 2) := by
  obtain ⟨chars, nonzero⟩ := line
  obtain ⟨back, rfl⟩ := name
  rfl

/-- It does nothing with a line that starts with a newline. -/
theorem parser_newline (first : line.chars.head? = some (ascii '\n')) :
    parser (CString.cells line.chars leftover) = .nothing := by
  obtain ⟨chars, nonzero⟩ := line
  cases chars with
  | nil => exact nomatch first
  | cons c back =>
      obtain rfl : c = ascii '\n' := Option.some.inj first
      rfl

/-- The first byte of a line is a newline where its first character is one. -/
theorem first_newline (newline : CString.cells line.chars leftover 0 = ascii '\n') :
    line.chars.head? = some (ascii '\n') := by
  match chars : line.chars, newline with
  | [], first => exact absurd first (show (0 : UInt8) ≠ ascii '\n' from by decide)
  | c :: back, first => exact congrArg some first

/-- It rejects a line that is none of these. -/
theorem parser_unknown (plain : line.chars.head? ≠ some (ascii '&'))
    (unknown : Unknown line (CString.cells line.chars leftover)) :
    parser (CString.cells line.chars leftover) =
      .error (CString.cells line.chars leftover) := by
  have other : ∀ {word : List UInt8} {handler : Handler (Nat → UInt8)},
      (line.chars = word → BuiltIn line (CString.cells line.chars leftover) handler) →
      ¬ strcmp word (CString.cells line.chars leftover) = 0 :=
    fun named equal => unknown.noBuiltIn _ (named (strcmp_eq_zero.mp equal).symm)
  have notEcho : ¬ strcmpN (literal "echo") (CString.cells line.chars leftover) 4 = 0 := by
    intro starts
    have name : literal "echo" <+: line.chars := (strcmpN_eq_zero rfl).mp starts
    by_cases on : SwitchesOn (CString.cells line.chars leftover)
    · exact unknown.noBuiltIn _ (.echoOn name on)
    · exact unknown.noBuiltIn _ (.echoOff name on)
  have notKill : ¬ strcmpN (literal "kill") (CString.cells line.chars leftover) 4 = 0 :=
    fun starts => unknown.noBuiltIn _ (.kill ((strcmpN_eq_zero rfl).mp starts))
  have notMan : ¬ strcmpN (literal "man") (CString.cells line.chars leftover) 3 = 0 :=
    fun starts => unknown.noBuiltIn _ (.man ((strcmpN_eq_zero rfl).mp starts))
  rw [parser, if_neg (first_ne_ampersand plain leftover), if_neg (other .help),
    if_neg (other .clear), if_neg (other .ps), if_neg notEcho, if_neg notKill,
    if_neg (mt program_iff.mp unknown.noProgram), if_neg notMan, if_neg (other .while1),
    if_neg (other .ls), if_neg (mt first_newline unknown.noNewline)]

/-- It rejects these lines only. -/
theorem parser_error_iff (plain : line.chars.head? ≠ some (ascii '&')) :
    (∃ shown, parser (CString.cells line.chars leftover) = .error shown) ↔
      Unknown line (CString.cells line.chars leftover) := by
  constructor
  · rintro ⟨shown, rejected⟩
    refine ⟨fun handler known => ?_, fun name => ?_, fun first => ?_⟩
    · exact nomatch (parser_builtIn known).symm.trans rejected
    · exact nomatch (parser_program name).symm.trans rejected
    · exact nomatch (parser_newline first).symm.trans rejected
  · exact fun unknown => ⟨_, parser_unknown plain unknown⟩

/-- What `parser` does with a line settles what it does with an ampersand in front of it. -/
theorem answers (plain : line.chars.head? ≠ some (ascii '&')) (leftover : Nat → UInt8) :
    Answers line (CString.cells line.chars leftover)
      (parser (CString.cells line.chars leftover))
      (parser (CString.cells (ascii '&' :: line.chars) leftover)) := by
  have counterpart := parser_counterpart plain leftover
  rw [parser_ampersand]
  refine ⟨fun handler known => ?_, fun name => ?_, parser_error_iff plain, ?_⟩
  · have called := parser_builtIn known
    exact ⟨called, (called ▸ counterpart).of_call⟩
  · have ran := @parser_program line leftover name
    exact ⟨ran, (ran ▸ counterpart).of_run⟩
  · exact counterpart.error_iff.symm.trans (parser_error_iff plain)

end Commands

/-- For every line without an ampersand: a built-in command is called by `parser` with its
handler and its argument, and started with both in a thread behind an ampersand. A line with `./`
in front runs the same program in both cases, and the lines that are neither, and no newline, are
the ones rejected in both. The bytes behind the line may differ unless it is a bare `echo` or
`man`. A built-in command behind an ampersand adds a thread that calls the handler, with its
argument in the line, if and only if `createThread` can add one. -/
theorem ampersand_counterpart (line : CString) (plain : line.chars.head? ≠ some (ascii '&')) :
    (∀ leftover, Answers line (CString.cells line.chars leftover)
      (parser (CString.cells line.chars leftover))
      (parser (CString.cells (ascii '&' :: line.chars) leftover))) ∧
    (∀ leftover, Counterpart (parser (CString.cells line.chars leftover))
      (parser (CString.cells (ascii '&' :: line.chars) leftover))) ∧
    (line.chars ∉ bareCommands → ∀ leftover other,
      Counterpart (parser (CString.cells line.chars leftover)).read
        (parser (CString.cells (ascii '&' :: line.chars) other)).read) ∧
    ∀ memory buffer leftover handler,
      CString.advance memory buffer = CString.cells (ascii '&' :: line.chars) leftover →
      BuiltIn line (CString.cells line.chars leftover) handler →
      ∀ (code : Code) (m : Threads),
        (∃ m', startThread code m (buffer + 1) handler = some (m', 0) ∧
          Calls code memory m m' handler) ↔
        ¬ m.scheduler.CannotAdd m.getCurrentProcess := by
  refine ⟨answers plain, fun leftover => ?_, fun notBare leftover other => ?_, ?_⟩
  · rw [parser_ampersand]
    exact parser_counterpart plain leftover
  · have same := asyncParser_unread_iff.mpr notBare leftover other
    rw [parser_ampersand, ← same]
    exact (parser_counterpart plain leftover).read
  · intro memory buffer leftover handler typed known code m
    have behind : CString.advance memory (buffer + 1) = CString.cells line.chars leftover := by
      rw [← advance_advance, typed]
      exact CString.advance_cells [ascii '&'] line.chars leftover
    have started := ((answers plain leftover).builtIn handler known).2
    rw [parser_ampersand, ← behind] at started
    exact startThread_iff started code m

/-- `&man ls` prints the page of `ls` in a thread. -/
theorem ampersand_counterpart_man :
    parser (CString.cells (ascii '&' :: literal "man ls") fun _ => 0) =
      .thread (.man (CString.advance (CString.cells (literal "man ls") fun _ => 0) 4)) :=
  (((ampersand_counterpart (CString.ofBytes (literal "man ls")) (by decide)).1
    fun _ => 0).builtIn _ (.man ⟨literal " ls", rfl⟩)).2

/-! ## kill -/

/-- `killProcess` of the shell: system call 11 with the pid. -/
def killProcess (s : Scheduler) (fuel rsp : Nat) (pid : Int) : Option Scheduler :=
  s.sys_call_kill fuel rsp (toQword pid)

/-- The line `kill` with the decimal digits of a pid behind it. -/
def killLine (pid : Int) : List UInt8 := literal "kill" ++ decimal pid

/-- The command calls `killProcess`, and that removes the process and no other. -/
def RemovesInForeground (s : Scheduler) (live : List Int) (fuel rsp : Nat) (pid : Int)
    (buffer : Nat → UInt8) : Prop :=
  ∃ argument, parser buffer = .call (.killProcess argument) ∧
    s.Removes live fuel rsp pid (killProcess s fuel rsp argument)

/-- The command starts a thread that calls `killProcess`, and on whatever ring it does so while
the process is on it, that removes the process and no other. -/
def RemovesInBackground (code : Code) (m : Threads) (memory : Nat → UInt8) (buffer fuel rsp : Nat)
    (pid : Int) : Prop :=
  ∃ argument m' called,
    parser (CString.advance memory buffer) = .thread (.killProcess argument) ∧
    startThread code m (buffer + 1) (.killProcess argument : Handler (Nat → UInt8)) =
      some (m', 0) ∧
    Calls code memory m m' (.killProcess called) ∧
    ∀ s live ring, Scheduler.Linked s live ring → s.current ≠ NULL → pid ∈ live →
      s.Removes live fuel rsp pid (killProcess s fuel rsp called)

/-- The bytes of a line with digits behind `kill` are no terminators. -/
theorem killLine_nonzero (pid : Int) : ∀ c ∈ killLine pid, c ≠ 0 := by
  have isNumeral := numeral_isNumeral (by decide : 1 < 10) pid.natAbs
  have notZero : ∀ d < 10, digitCode d ≠ 0 := by decide
  intro c member
  rcases List.mem_append.mp member with name | number
  · rintro rfl
    exact absurd name (by decide)
  rcases List.mem_append.mp number with sign | digit
  · split at sign
    · rw [List.mem_singleton.mp sign]
      decide
    · exact absurd sign List.not_mem_nil
  · obtain ⟨d, inside, rfl⟩ := List.mem_map.mp digit
    exact notZero d (isNumeral.digit d inside)

/-- The command `kill` with the digits of a pid. -/
def killCommand (pid : Int) : CString := ⟨killLine pid, killLine_nonzero pid⟩

/-- Such a line is the built-in command `kill`, whose pid is the character behind the name. -/
theorem killCommand_builtIn (pid : Int) (buffer : Nat → UInt8) :
    BuiltIn (killCommand pid) buffer (.killProcess (killArgument buffer)) :=
  .kill ⟨decimal pid, rfl⟩

/-- The pid of a process has a first digit, which is the whole of it up to 9. -/
theorem decimal_positive {pid : Int} (positive : 0 < pid) :
    ∃ (d : Nat) (rest : List UInt8), decimal pid = digitCode d :: rest ∧ 0 < d ∧ d < 10 ∧
      (pid ≤ 9 → (d : Int) = pid) := by
  have isNumeral := numeral_isNumeral (by decide : 1 < 10) pid.natAbs
  have unsigned : decimal pid = (numeral 10 pid.natAbs).map digitCode := by
    rw [decimal, if_neg (by omega), List.nil_append]
  by_cases one : pid.natAbs < 10
  · refine ⟨pid.natAbs, [], ?_, by omega, one, fun _ => by omega⟩
    rw [unsigned, numeral_of_lt one]
    rfl
  · have longer := numeral_of_le (by decide : 1 < 10) (by omega : 10 ≤ pid.natAbs)
    rcases digits : numeral 10 pid.natAbs with - | ⟨d, back⟩
    · exact absurd digits isNumeral.nonempty
    · have leading := isNumeral.leading
      have several : 1 < (numeral 10 pid.natAbs).length := by
        have quotient := numeral_isNumeral (by decide : 1 < 10) (pid.natAbs / 10)
        have some := List.length_pos_of_ne_nil quotient.nonempty
        rw [longer, List.length_append, List.length_singleton]
        omega
      have notZero := leading several
      rw [digits] at notZero
      refine ⟨d, back.map digitCode, ?_, ?_, ?_, fun small => by omega⟩
      · rw [unsigned, digits, List.map_cons]
      · exact Nat.pos_of_ne_zero fun zero => notZero (zero ▸ rfl)
      · exact isNumeral.digit d (digits ▸ List.mem_cons_self)

/-- What `kill` gets is the first digit. -/
theorem killArgument_line {pid : Int} (positive : 0 < pid) (leftover : Nat → UInt8) :
    ∃ d : Nat, killArgument (CString.cells (killLine pid) leftover) = d ∧ 0 < d ∧ d < 10 ∧
      (pid ≤ 9 → (d : Int) = pid) := by
  obtain ⟨d, rest, digits, notZero, one, whole⟩ := decimal_positive positive
  have eachDigit : ∀ d < 10, charValue (digitCode d) - charValue (ascii '0') = d := by decide
  have behind : CString.cells (killLine pid) leftover 4 = digitCode d := by
    have advanced := CString.advance_cells (literal "kill") (decimal pid) leftover
    rw [digits] at advanced
    rw [killLine, digits]
    exact congrFun advanced 0
  refine ⟨d, ?_, notZero, one, whole⟩
  rw [killArgument, behind]
  exact eachDigit d one

/-- `kill` of a digit is `removeProcess` of it. -/
theorem killProcess_digit (s : Scheduler) (fuel rsp : Nat) {d : Nat} (one : d < 10) :
    killProcess s fuel rsp d = s.removeProcess fuel rsp d := by
  rw [killProcess, Scheduler.sys_call_kill, toInt32_toQword (by omega) (by omega)]

section Kill

variable {s : Scheduler} {live : List Int} {ring : List Nat} {pid : Int}

/-- `kill` of a digit removes the process if and only if the digit is its pid. -/
theorem killProcess_removes_iff (linked : s.Linked live ring) (present : s.current ≠ NULL)
    (isLive : pid ∈ live) (positive : 0 < pid) {d : Nat} (notZero : 0 < d) (one : d < 10)
    (fuel rsp : Nat) :
    s.Removes live fuel rsp pid (killProcess s fuel rsp d) ↔ (d : Int) = pid := by
  rw [killProcess_digit s fuel rsp one]
  constructor
  · intro removes
    by_contra different
    exact linked.not_removes present isLive different (by omega) fuel rsp removes
  · rintro rfl
    exact linked.removes present isLive (by omega) fuel rsp

/-- `parser` calls `killProcess`. -/
theorem parser_kill (pid : Int) (leftover : Nat → UInt8) :
    parser (CString.cells (killLine pid) leftover) =
      .call (.killProcess (killArgument (CString.cells (killLine pid) leftover))) :=
  parser_builtIn (killCommand_builtIn pid (CString.cells (killLine pid) leftover))

/-- With an ampersand in front it starts a thread for it. -/
theorem parser_kill_ampersand (pid : Int) (leftover : Nat → UInt8) :
    parser (CString.cells (ascii '&' :: killLine pid) leftover) =
      .thread (.killProcess (killArgument (CString.cells (killLine pid) leftover))) := by
  have plain : (killCommand pid).chars.head? ≠ some (ascii '&') :=
    (by decide : some (ascii 'k') ≠ some (ascii '&'))
  exact ((answers plain leftover).builtIn _ (killCommand_builtIn pid _)).2

/-- For every ring of processes and every pid of one of them but the first, `kill` with its digits
removes this process and no other if and only if the pid has one digit. Behind an ampersand
`createThread` must also be able to add a thread. -/
theorem kill_removes_iff (linked : s.Linked live ring) (present : s.current ≠ NULL)
    (isLive : pid ∈ live) (positive : 0 < pid) (fuel rsp : Nat) (leftover : Nat → UInt8) :
    (RemovesInForeground s live fuel rsp pid (CString.cells (killLine pid) leftover) ↔ pid ≤ 9) ∧
    ∀ (code : Code) (frame : Nat → StackFrame) (memory : Nat → UInt8) (buffer : Nat),
      CString.advance memory buffer = CString.cells (ascii '&' :: killLine pid) leftover →
      (RemovesInBackground code ⟨s, frame⟩ memory buffer fuel rsp pid ↔
        pid ≤ 9 ∧ ¬ s.CannotAdd (s.slot s.current).process) := by
  obtain ⟨d, first, notZero, one, whole⟩ := killArgument_line positive leftover
  have removes := killProcess_removes_iff linked present isLive positive notZero one fuel rsp
  have digit : (d : Int) = pid ↔ pid ≤ 9 := ⟨fun same => by omega, whole⟩
  constructor
  · rw [← digit, ← removes]
    constructor
    · rintro ⟨argument, parsed, removed⟩
      rw [parser_kill, first] at parsed
      cases parsed
      exact removed
    · intro removed
      refine ⟨d, ?_, removed⟩
      rw [parser_kill, first]
  · intro code frame memory buffer typed
    have parsed : parser (CString.advance memory buffer) = .thread (.killProcess d) := by
      rw [typed, parser_kill_ampersand, first]
    have behind : asyncParser (CString.advance memory (buffer + 1)) = .thread (.killProcess d) := by
      rw [← parsed, ← advance_advance, typed, parser_ampersand]
      rfl
    have started := startThread_iff behind code ⟨s, frame⟩
    constructor
    · rintro ⟨argument, m', called, parsed', made, calls, removed⟩
      rw [parsed] at parsed'
      cases parsed'
      have can := Threads.can_of_createThread made
      obtain ⟨m'', made', calls'⟩ := started.mpr can
      obtain ⟨rfl, -⟩ := Prod.mk.inj (Option.some.inj (made.symm.trans made'))
      obtain rfl := Handler.killProcess.inj (calls.unique calls')
      exact ⟨digit.mp (removes.mp (removed s live ring linked present isLive)), can⟩
    · rintro ⟨small, can⟩
      obtain ⟨m', made, calls⟩ := started.mpr can
      refine ⟨d, m', d, parsed, made, calls, fun s' live' ring' linked' present' isLive' => ?_⟩
      exact (killProcess_removes_iff linked' present' isLive' positive notZero one fuel rsp).mpr
        (whole small)

/-- Four processes with the pids 2, which runs, 1, 12 and 0. -/
def fourProcesses : Scheduler where
  cardinal_processes := 4
  current := 0x3000
  pid := 13
  buddyArray := createHeap
  slot := fun a =>
    ⟨if a = 0x3000 then 0x2000 else if a = 0x2000 then 0xD000
      else if a = 0xD000 then 0x1000 else 0x3000, a⟩
  process := fun p => ⟨p / 0x1000 - 1, .ready, 0, 0, Scheduler.initializeThreadArray, NULL, 0,
    Vector.replicate _ NULL⟩
  thread := fun _ => ⟨NULL, NULL, 0⟩

theorem fourProcesses_linked :
    fourProcesses.Linked [2, 1, 12, 0] [0x3000, 0x2000, 0xD000, 0x1000] where
  closed := ⟨⟨rfl, rfl, rfl, rfl, rfl⟩, by decide, by decide⟩
  cardinal := rfl
  pids := List.Perm.of_eq rfl
  distinct := by decide
  init := by decide

/-- The process that runs can get a second thread. -/
theorem fourProcesses_can :
    ¬ fourProcesses.CannotAdd (fourProcesses.slot fourProcesses.current).process := by
  have taken : (allocPage createHeap (NUMBER_OF_PAGES_TO_ALLOC sizeofThread)).2.isSome ∧
      (allocPage (allocPage createHeap (NUMBER_OF_PAGES_TO_ALLOC sizeofThread)).1 2).2.isSome ∧
      (allocPage (allocPage (allocPage createHeap
        (NUMBER_OF_PAGES_TO_ALLOC sizeofThread)).1 2).1 2).2.isSome := by
    rw [createHeap_eq]
    decide +kernel
  have pages : ∀ after t page1 page2, TakesPages createHeap after t page1 page2 →
      t.isSome ∧ page1.isSome ∧ page2.isSome := by
    rintro after t page1 page2 ⟨first, second, single, user, kernel⟩
    rwa [single, user, kernel] at taken
  rintro (occupied | ⟨after, t, page1, page2, took, missing⟩)
  · exact occupied 0 (by decide) (by decide)
  · rw [show fourProcesses.buddyArray = createHeap by rw [fourProcesses]] at took
    obtain ⟨first, second, third⟩ := pages after t page1 page2 took
    rcases missing with rfl | rfl | rfl
    · cases first
    · cases second
    · cases third

/-- The functions at addresses of their own. -/
def someCode : Code where
  address := functions.idxOf
  distinct := by
    intro f g same
    cases f <;> cases g <;> first | rfl | exact absurd same (by decide)

/-- `kill1` removes the process with the pid 1. -/
theorem kill_removes_one :
    RemovesInForeground fourProcesses [2, 1, 12, 0] 0 0 1
        (CString.cells (killLine 1) fun _ => 0) ∧
      RemovesInBackground someCode ⟨fourProcesses, fun _ => ⟨0, 0, 0, 0⟩⟩
        (CString.cells (ascii '&' :: killLine 1) fun _ => 0) 0 0 0 1 := by
  have can := fourProcesses_can
  obtain ⟨foreground, background⟩ := kill_removes_iff fourProcesses_linked (by decide)
    (by decide : (1 : Int) ∈ [2, 1, 12, 0]) (by decide) 0 0 fun _ => 0
  exact ⟨foreground.mpr (by decide), (background someCode _ _ 0 rfl).mpr ⟨by decide, can⟩⟩

/-- `kill12` removes the process with the pid 1. -/
theorem kill_takes_first_digit :
    parser (CString.cells (killLine 12) fun _ => 0) = .call (.killProcess 1) ∧
    (∃ after, killProcess fourProcesses 0 0 1 = some after ∧ after.Intact [2, 12, 0]) ∧
    ¬ RemovesInForeground fourProcesses [2, 1, 12, 0] 0 0 12
      (CString.cells (killLine 12) fun _ => 0) := by
  have digits : killLine 12 = literal "kill12" := by decide
  have parsed : parser (CString.cells (killLine 12) fun _ => 0) = .call (.killProcess 1) := by
    rw [parser_kill, digits]
    rfl
  have removes : fourProcesses.Removes [2, 1, 12, 0] 0 0 1 (killProcess fourProcesses 0 0 1) :=
    (killProcess_removes_iff fourProcesses_linked (by decide) (by decide) (by decide)
      (by decide : 0 < 1) (by decide) 0 0).mpr rfl
  obtain ⟨⟨after, -, returned⟩, left⟩ := removes
  have result := returned.resolve_right fun yields => absurd yields.1 (by decide)
  refine ⟨parsed, ⟨after, result, left after result⟩, ?_⟩
  rintro ⟨argument, parsed', removes⟩
  rw [parsed] at parsed'
  cases parsed'
  exact absurd ((killProcess_removes_iff fourProcesses_linked (by decide) (by decide) (by decide)
    (by decide : 0 < 1) (by decide) 0 0).mp removes) (by decide)

end Kill

end SistemasOperativos.Userland.Shell
