import Gateway.App.Lifecycle
import Gateway.Config.Load
import Gateway.Text.Similarity

/-! The program as it is called from a shell: its arguments, its exit code and what it writes to
standard error. -/
namespace Gateway.App

inductive Invocation where
  | run (config : Option String)
  | help
  deriving DecidableEq

/-- Why a call is not understood. -/
inductive Misuse where
  /-- An argument that stands for nothing. Of a long option it is told which one may be meant, and
  whether a file has been named before it. -/
  | unexpected (arg : String) (meant : Option String) (named : Bool)
  /-- A value for an option that takes none. -/
  | surplus (value : String) (named : Bool)
  | missingValue
  | repeated
  deriving DecidableEq

/-- The name under which the program speaks of itself. -/
def programName : String := "edge-proxy"

/-- An argument by its form. -/
inductive Argument where
  | plain (text : String)
  | help
  | helpValue (value : String)
  | config (value : Option String)
  | unknownShort (letter : Char)
  | unknownLong (name : String)
  | separator
  deriving DecidableEq

namespace Argument

def ofLong (name : String) (value : Option String) : Argument :=
  if name == "config" then config value
  else if name == "help" then match value with
    | none => help
    | some v => helpValue v
  else unknownLong name

/-- The value of a short option, which an equals sign may set off. -/
def attached : List Char → Option String
  | [] => none
  | '=' :: rest => some (String.ofList rest)
  | rest => some (String.ofList rest)

def ofChars : List Char → Argument
  | ['-', '-'] => separator
  | '-' :: '-' :: rest =>
    let name := String.ofList (rest.takeWhile (· != '='))
    match rest.dropWhile (· != '=') with
    | [] => ofLong name none
    | _ :: value => ofLong name (some (String.ofList value))
  | '-' :: 'h' :: _ => help
  | '-' :: 'c' :: rest => config (attached rest)
  | '-' :: c :: _ => unknownShort c
  | text => plain (String.ofList text)

def ofString (arg : String) : Argument := ofChars arg.toList

end Argument

/-- What is known of the last option `--config`. -/
inductive Pending where
  | nothing
  | awaiting
  | given (value : String)
  deriving DecidableEq

namespace Pending

/-- The file after the pending option is taken into account. -/
def settle (config : Option String) : Pending → Except Misuse (Option String)
  | nothing => .ok config
  | awaiting => .error .missingValue
  | given value =>
    if config.isSome then .error .repeated
    else if value == "" then .error .missingValue
    else .ok (some value)

/-- Whether a file has been named once. -/
def isNamed (config : Option String) : Pending → Bool
  | given _ => config.isNone
  | _ => config.isSome

end Pending

namespace Invocation

/-- The option that a name is close to. -/
def meant (name : String) : Option String :=
  ["config", "help"].find? fun known => Text.Similarity.isAlike name.toList known.toList

/-- Reads the arguments after those that gave `config` and left an option pending. -/
def parseFrom (config : Option String) (pending : Pending) :
    List String → Except Misuse Invocation
  | [] => (pending.settle config).map run
  | arg :: rest =>
    match Argument.ofString arg, pending with
    | .plain text, .awaiting => parseFrom config (.given text) rest
    | .plain text, _ => .error (.unexpected text none false)
    | .unknownShort c, _ => .error (.unexpected (String.ofList ['-', c]) none false)
    | .unknownLong name, _ =>
      .error (.unexpected ("--" ++ name) (meant name) (pending.isNamed config))
    | .help, _ => (pending.settle config).map fun _ => help
    | .helpValue value, _ => .error (.surplus value config.isSome)
    | .config none, _ =>
      match pending.settle config with
      | .ok config => parseFrom config .awaiting rest
      | .error e => .error e
    | .config (some value), _ =>
      match (pending.settle config).bind ((Pending.given value).settle ·) with
      | .ok config => parseFrom config .nothing rest
      | .error e => .error e
    | .separator, _ =>
      match rest with
      | extra :: _ => .error (.unexpected extra none false)
      | [] => (pending.settle config).map run

def parse (args : List String) : Except Misuse Invocation := parseFrom none .nothing args

end Invocation

namespace Misuse

/-- The option `--config` as texts show it. -/
def configOption : String := "--config <CONFIG>"

def problem : Misuse → String
  | unexpected arg _ _ => "unexpected argument '" ++ arg ++ "' found"
  | surplus value _ => "unexpected value '" ++ value ++ "' for '--help' found; no more were expected"
  | missingValue => "a value is required for '" ++ configOption ++ "' but none was supplied"
  | repeated => "the argument '" ++ configOption ++ "' cannot be used multiple times"

/-- Names the option that may be meant. -/
def tip : Misuse → String
  | unexpected _ (some name) _ => "  tip: a similar argument exists: '--" ++ name ++ "'\n\n"
  | _ => ""

/-- The options that a call of this kind is shown with; all of them when there are none. -/
def usageOptions (meant : Option String) (named : Bool) : String :=
  let config := if named || meant == some "config" then [configOption] else []
  let help := if meant == some "help" then ["--help"] else []
  match config ++ help with
  | [] => "[OPTIONS]"
  | options => " ".intercalate options

def usageLine (options : String) : String := "Usage: " ++ programName ++ " " ++ options ++ "\n\n"

/-- How the program is called, unless that is plain. -/
def usage : Misuse → String
  | unexpected _ meant named => usageLine (usageOptions meant named)
  | surplus _ named => usageLine (usageOptions none named)
  | missingValue => ""
  | repeated => usageLine (usageOptions none false)

def message (m : Misuse) : String :=
  "error: " ++ m.problem ++ "\n\n" ++ m.tip ++ m.usage ++ "For more information, try '--help'.\n"

end Misuse

/-- What is left of a call of the program. -/
structure Termination where
  code : Nat
  stderr : String
  deriving DecidableEq

/-- Calls the program on a host. A failure while it runs shows in the exit code alone. -/
def call (args : List String) (host : Host) (ports : Ports) : Termination :=
  match Invocation.parse args with
  | .error misuse => ⟨2, misuse.message⟩
  | .ok .help => ⟨0, ""⟩
  | .ok (.run config) =>
    let loaded := match config with
      | some path => Config.load host.world.files (Text.Utf8.encode path)
      | none => Config.parse ""
    match loaded with
    | .error e => ⟨1, programName ++ ": " ++ e.message ++ "\n"⟩
    | .ok settings => match run settings host ports with
      | .ok () => ⟨0, ""⟩
      | .error _ => ⟨1, ""⟩

end Gateway.App
