import FirmwareLane.Shell.Builtin.Basic

/-!
# Commands for signals

Commands of the shell that send signals and say what is done at them.
-/

set_option autoImplicit false
namespace FirmwareLane
namespace Shell
namespace Builtin

open Act

/-- The names of signals with their numbers. -/
def signals : List (String × Nat) :=
  [("EXIT", 0), ("HUP", 1), ("INT", 2), ("QUIT", 3), ("ILL", 4), ("TRAP", 5), ("ABRT", 6),
   ("BUS", 7), ("FPE", 8), ("KILL", 9), ("USR1", 10), ("SEGV", 11), ("USR2", 12), ("PIPE", 13),
   ("ALRM", 14), ("TERM", 15), ("CHLD", 17), ("CONT", 18), ("STOP", 19), ("TSTP", 20),
   ("TTIN", 21), ("TTOU", 22), ("URG", 23), ("XCPU", 24), ("XFSZ", 25), ("VTALRM", 26),
   ("PROF", 27), ("WINCH", 28), ("IO", 29), ("PWR", 30), ("SYS", 31), ("RTMIN", 34), ("RTMAX", 64)]

/-- The greatest number of a signal. -/
def greatestSignal : Nat := 64

/-- The number of a signal that a word names, at least a given one. -/
def signal? (least : Nat) (w : Chars) : Option Nat :=
  let n := match number? w with
    | some n => some n
    | none => signals.lookup (Chars.string (w.map Char.toUpper))
  n.filter fun n ↦ least ≤ n && n ≤ greatestSignal

/-- The name of a signal. -/
def signalName (n : Nat) : Chars :=
  match signals.find? (·.2 == n) with
  | some (name, _) => name.toList
  | none =>
    if 34 < n ∧ n < 50 then "RTMIN+".toList ++ number (n - 34)
    else if 50 ≤ n ∧ n < greatestSignal then "RTMAX-".toList ++ number (greatestSignal - n)
    else number n

/-- What is said of a program that a signal ended. -/
def signalMessage? (n : Nat) : Option String :=
  [(1, "Hangup"), (3, "Quit"), (4, "Illegal instruction"), (5, "Trace/breakpoint trap"),
   (6, "Aborted"), (7, "Bus error"), (8, "Floating point exception"), (9, "Killed"),
   (10, "User defined signal 1"), (11, "Segmentation fault"), (12, "User defined signal 2"),
   (14, "Alarm clock"), (15, "Terminated"), (16, "Stack fault"), (24, "CPU time limit exceeded"),
   (25, "File size limit exceeded"), (26, "Virtual timer expired"),
   (27, "Profiling timer expired"), (29, "I/O possible"), (30, "Power failure"),
   (31, "Bad system call")].lookup n

/-- Says that a signal ended a program. -/
def warnOfSignal (n : Nat) : Act Unit := do
  match signalMessage? n with
  | some text => warn (text.toList ++ ['\n'])
  | none => return

/-- The signals that do nothing to a program that does not ask for them. -/
def harmless : List Nat := [0, 17, 18, 23, 28]

/-- The signals that stop a program. -/
def stopping : List Nat := [19, 20, 21, 22]

/-- Sets what is done at signals, or that nothing is done. -/
def setTraps (action : Option Chars) (names : List Chars) : Act Nat :=
  each names fun w ↦ do
    match signal? 0 w with
    | some n => do
      let others (p : Process) := p.traps.filter fun t ↦ t.1 != n
      alter fun p ↦ { p with traps := others p ++ (action.map fun a ↦ (n, a)).toList }
      return true
    | none => do
      complain "trap" (Chars.string w ++ ": bad trap")
      return false

/-- Says what is done at signals. -/
def trap : Tool := fun words ↦ do
  match ← withoutOptions words with
  | [] => do
    for (n, action) in (← process).traps.mergeSort fun x y ↦ x.1 ≤ y.1 do
      say ("trap -- ".toList ++ quote action ++ ' ' :: signalName n ++ ['\n'])
    return 0
  | [w] => setTraps none [w]
  | action :: names =>
    if (signal? 0 action).isSome then setTraps none (action :: names)
    else setTraps (if action = ['-'] then none else some action) names

/-- Lists the signals. -/
def listSignals : Act Unit := do
  say "0\n".toList
  for i in List.range greatestSignal do say (signalName (i + 1) ++ ['\n'])

/-- The signal that options name, which may be none, and the words behind them. -/
def killArguments (words : List Chars) : Act (Option Nat × List Chars) := do
  match words with
  | ['-', 's'] :: [] => fail "No arg for -s option"
  | ['-', 's'] :: w :: rest => return (some (← ofName w), rest)
  | ['-', '-'] :: rest => return (some 15, rest)
  | ('-' :: c :: w) :: rest =>
    match signal? 1 (c :: w), (c :: w) with
    | some n, _ => return (some n, rest)
    | none, ['0'] => return (some 0, rest)
    | none, 's' :: w => return (some (← ofName w), rest)
    | none, 'l' :: _ => return (none, rest.dropWhile (· == "-l".toList))
    | none, _ => fail ("Illegal option -" ++ Chars.string [c])
  | words => return (some 15, words)
where
  /-- The number of the signal that a word must name. -/
  ofName (w : Chars) : Act Nat := do
    match signal? 1 w with
    | some n => return n
    | none => fail ("invalid signal number or name: " ++ w.string)

/-- What is said where the words of `kill` make no sense. -/
def killUsage : String :=
  "Usage: kill [-s sigspec | -signum | -sigspec] [pid | job]... or\nkill -l [exitstatus]"

/-- Receives a signal in the running shell; `act` carries out a text. -/
def receive (act : Chars → Act Unit) (signal : Nat) : Act Unit := do
  let p ← process
  match p.traps.lookup signal with
  | some action => if signal = 9 then throw (.killed p.pid 9) else act action
  | none =>
    if harmless.contains signal then pure ()
    else if stopping.contains signal then throw .timeUp
    else throw (.killed p.pid signal)

/-- The number in the place of that of a process whose signal is for all processes. -/
def everyProcess : Nat := 0

/-- Sends a signal to the process of a number, or to the group of the shell; tells whether there is
such a process. -/
def send (act : Chars → Act Unit) (signal : Nat) (w : Chars) : Act Bool := do
  let p ← process
  let toGroup := w = ['0'] || w = '-' :: number p.pid
  let n ← countOf (if w.head? = some '-' then w.drop 1 else w)
  if toGroup then
    if harmless.contains signal then return true
    else if (p.traps.lookup signal).isSome && signal != 9 then
      receive act signal
      return true
    else throw (.killed everyProcess signal)
  else if n = p.pid then
    if p.isInner then modify fun s ↦ { s with pending := s.pending ++ [(n, signal)] }
    else receive act signal
    return true
  else
    let s ← get
    if s.jobs.any (·.pid == n) then
      unless harmless.contains signal do
        modify fun s ↦ { s with
          jobs := s.jobs.filter (·.pid != n)
          ended := ⟨n, 128 + signal, some signal, s.now⟩ :: s.ended }
      return true
    else if n = 1 ∧ signal = 0 then return true
    else
      report "No such process\n"
      return false

/-- Sends a signal. -/
def kill (act : Chars → Act Unit) : Tool := fun words ↦ do
  if words.isEmpty then fail killUsage
  match ← killArguments words with
  | (some signal, targets) =>
    if targets.isEmpty then fail killUsage
    else
      match targets.find? fun w ↦ w.head? == some '%' with
      | some w => fail ("No such job: " ++ w.string)
      | none => each targets (send act signal)
  | (none, []) => do
    listSignals
    return 0
  | (none, w :: _) => do
    let n ← countOf w
    let n := if 128 < n then n - 128 else n
    if 0 < n && n ≤ greatestSignal then
      say (signalName n ++ ['\n'])
      return 0
    else fail ("invalid signal number or exit status: " ++ w.string)

end Builtin
end Shell
end FirmwareLane
