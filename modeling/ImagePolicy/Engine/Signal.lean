/-
# Signals

The signals that end, stop or disturb a program: their numbers and names, how their end is told to
a reader, and what they do to a program that makes no provision for them. Numbers from 34 on are
free for programs to use; they have no name in an exit status.

Key definitions: `Signal`, `Signal.all`, `Signal.ofNumber?`, `Signal.effectOf`.
-/

namespace ImagePolicy

/-- What a signal does to a program that makes no provision for it. -/
inductive SignalEffect where
  | ends
  | ignored
  | stops
  deriving DecidableEq, Repr

/-- A signal: its number, its name, the wording of an end by it, and its effect. -/
structure Signal where
  number : Nat
  name : String
  wording : String
  effect : SignalEffect
  deriving DecidableEq, Repr

namespace Signal

/-- The signals that have a name. -/
def all : List Signal :=
  [⟨1, "HUP", "Hangup", .ends⟩, ⟨2, "INT", "Interrupt", .ends⟩, ⟨3, "QUIT", "Quit", .ends⟩,
    ⟨4, "ILL", "Illegal instruction", .ends⟩, ⟨5, "TRAP", "Trace/breakpoint trap", .ends⟩,
    ⟨6, "ABRT", "Aborted", .ends⟩, ⟨7, "BUS", "Bus error", .ends⟩,
    ⟨8, "FPE", "Floating point exception", .ends⟩, ⟨9, "KILL", "Killed", .ends⟩,
    ⟨10, "USR1", "User defined signal 1", .ends⟩, ⟨11, "SEGV", "Segmentation fault", .ends⟩,
    ⟨12, "USR2", "User defined signal 2", .ends⟩, ⟨13, "PIPE", "Broken pipe", .ends⟩,
    ⟨14, "ALRM", "Alarm clock", .ends⟩, ⟨15, "TERM", "Terminated", .ends⟩,
    ⟨16, "STKFLT", "Stack fault", .ends⟩, ⟨17, "CHLD", "Child exited", .ignored⟩,
    ⟨18, "CONT", "Continued", .ignored⟩, ⟨19, "STOP", "Stopped (signal)", .stops⟩,
    ⟨20, "TSTP", "Stopped", .stops⟩, ⟨21, "TTIN", "Stopped (tty input)", .stops⟩,
    ⟨22, "TTOU", "Stopped (tty output)", .stops⟩,
    ⟨23, "URG", "Urgent I/O condition", .ignored⟩,
    ⟨24, "XCPU", "CPU time limit exceeded", .ends⟩,
    ⟨25, "XFSZ", "File size limit exceeded", .ends⟩,
    ⟨26, "VTALRM", "Virtual timer expired", .ends⟩,
    ⟨27, "PROF", "Profiling timer expired", .ends⟩, ⟨28, "WINCH", "Window changed", .ignored⟩,
    ⟨29, "IO", "I/O possible", .ends⟩, ⟨30, "PWR", "Power failure", .ends⟩,
    ⟨31, "SYS", "Bad system call", .ends⟩]

/-- The named signal of a number. -/
def ofNumber? (n : Nat) : Option Signal :=
  all.find? fun s => s.number = n

/-- What a signal does to a program that makes no provision for it. -/
def effectOf (n : Nat) : SignalEffect :=
  match ofNumber? n with
  | some s => s.effect
  | none => .ends

/-- The signal that nothing can be done about. -/
def kill : Nat := 9

/-- The signals free for programs are those from this number on. -/
def firstFree : Nat := 34

/-- The last signal. -/
def last : Nat := 64

/-- How the end by a signal is told. -/
def wordingOf (n : Nat) : String :=
  match ofNumber? n with
  | some s => s.wording
  | none =>
    if firstFree ≤ n then "Real-time signal " ++ toString (n - firstFree)
    else "Unknown signal " ++ toString n

end Signal
end ImagePolicy
