import Gateway.App.StopSignal

/-! Signals by number and name, and how a process can end. -/
namespace Gateway.App

/-- The standard signals. -/
def signalNames : List (Nat × String) :=
  [(1, "HUP"), (2, "INT"), (3, "QUIT"), (4, "ILL"), (5, "TRAP"), (6, "ABRT"), (7, "BUS"),
    (8, "FPE"), (9, "KILL"), (10, "USR1"), (11, "SEGV"), (12, "USR2"), (13, "PIPE"), (14, "ALRM"),
    (15, "TERM"), (16, "STKFLT"), (17, "CHLD"), (18, "CONT"), (19, "STOP"), (20, "TSTP"),
    (21, "TTIN"), (22, "TTOU"), (23, "URG"), (24, "XCPU"), (25, "XFSZ"), (26, "VTALRM"),
    (27, "PROF"), (28, "WINCH"), (29, "IO"), (30, "PWR"), (31, "SYS")]

/-- The number of a name in any case, or of a number in digits. -/
def signalNumber? (name : String) : Option Nat :=
  let upper := name.map Char.toUpper
  ((signalNames.find? (·.2 == upper)).map (·.1)) <|> name.toNat?

/-- Signals that do nothing to a process that does not ask for them. -/
def isHarmless (signal : Nat) : Bool := [17, 18, 23, 28].contains signal

inductive ExitStatus where
  | exited (code : Nat)
  | signalled (signal : Nat)
  deriving DecidableEq

namespace ExitStatus

def isSuccess (s : ExitStatus) : Bool := s == exited 0

def text : ExitStatus → String
  | exited code => "exit status: " ++ toString code
  | signalled n => "signal: " ++ toString n ++ (match signalNames.lookup n with
    | some name => " (SIG" ++ name ++ ")"
    | none => "")

end ExitStatus

end Gateway.App
