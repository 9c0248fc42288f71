import Gateway.Text.Blank

/-! The signals that may be chosen to ask a process to exit. -/
namespace Gateway.App

inductive StopSignal where
  | term
  | int
  | quit
  | kill
  deriving DecidableEq

namespace StopSignal

def upperChar (c : Char) : Char :=
  if 'a' ≤ c ∧ c ≤ 'z' then Char.ofNat (c.toNat - 32) else c

/-- A name in any case, with or without `SIG`; blanks around it do not matter, and a blank name is
the terminate signal. -/
def parse? (name : String) : Option StopSignal :=
  let upper := (Text.trim name.toList).map upperChar
  let bare := match upper with
    | 'S' :: 'I' :: 'G' :: rest => rest
    | _ => upper
  match String.ofList bare with
  | "" => some term
  | "TERM" => some term
  | "INT" => some int
  | "QUIT" => some quit
  | "KILL" => some kill
  | _ => none

/-- The signal that a setting stands for; an unknown name is the terminate signal. -/
def ofSetting (name : String) : StopSignal := (parse? name).getD term

def text : StopSignal → String
  | term => "SIGTERM"
  | int => "SIGINT"
  | quit => "SIGQUIT"
  | kill => "SIGKILL"

def number : StopSignal → Nat
  | term => 15
  | int => 2
  | quit => 3
  | kill => 9

end StopSignal

end Gateway.App
