import Gateway.App.Environment
import Gateway.App.Supervision
import Gateway.Shell.Program

/-! The system that the gateway runs on, as far as the application can tell: files, a clock, and one
process at a time. -/
namespace Gateway.App
open Shell (Program World)

structure Host where
  world : World
  /-- The gateway's own process number. -/
  pid : Nat
  /-- The gateway's own environment. -/
  environment : Environment
  /-- The process that was launched last, with its place in the order of launches. -/
  latest : Option (Nat × Program)

namespace Host

def new (files : Files) (environment : Environment) : Host :=
  ⟨⟨files, 0, []⟩, 1000, environment, none⟩

/-- Whether a working directory can be looked at. -/
def directory (h : Host) (path : String) : Except FileError Unit :=
  (h.world.files.lookup (Text.Utf8.encode path)).map fun _ => ()

/-- The files as seen from a working directory, an empty one being the gateway's own. -/
def enter (h : Host) (path : String) : Except FileError Files :=
  if path = "" then .ok h.world.files
  else match h.world.files.lookup (Text.Utf8.encode path) with
    | .ok .directory => .ok (h.world.files.moveTo (Text.Utf8.encode path))
    | .ok _ => .error .notADirectory
    | .error e => .error e

/-- Whether what a path leads to can be executed. -/
def executable (files : Files) (path : Bytes) : Except FileError Unit :=
  match files.lookup path with
  | .ok .program => .ok ()
  | .ok _ => .error .permissionDenied
  | .error e => .error e

/-- Looks through directories for a program; one that is there and cannot be executed decides when
none can. -/
def search (files : Files) (name : Bytes) : List Bytes → FileError → Except FileError Unit
  | [], e => .error e
  | d :: rest, e =>
    match executable files (if d.isEmpty then name else d ++ 47 :: name) with
    | .ok () => .ok ()
    | .error found => search files name rest (if e = .permissionDenied then e else found)

/-- Finds a program by its path, or by its name in the directories of `PATH`. -/
def findProgram (files : Files) (env : Environment) (program : String) : Except FileError Unit :=
  let name := Text.Utf8.encode program
  if name.contains 47 then executable files name
  else if Files.maxNameLength < name.length then .error .nameTooLong
  else search files name
    (Bytes.splitOn 58 (Text.Utf8.encode ((env.lookup "PATH").getD "/bin:/usr/bin"))) .notFound

/-- The process that a launch of the command makes. -/
def launch (h : Host) (settings : Config.AppSettings) (command : Command) (pid : Nat) :
    Except SpawnError Program :=
  let env := appEnvironment h.environment settings
  let strings := command.program :: command.args ++ env.flatMap fun (n, v) => [n, v]
  if strings.any (·.toList.contains '\x00') then .error .nulByte
  else match h.enter settings.workingDirectory with
    | .error e => .error (.file e)
    | .ok files => match findProgram files env command.program with
      | .error e => .error (.file e)
      | .ok () => .ok (.launch pid h.pid files.here env command.program command.args)

/-- Sends a signal; a process that has ended does not notice. -/
def signal (h : Host) (pid number : Nat) : SignalAnswer × Host :=
  match h.latest with
  | some (child, p) =>
    if p.pid = pid then (.delivered, { h with latest := some (child, p.receive number) })
    else (.noSuchProcess, h)
  | none => (.noSuchProcess, h)

/-- The most steps that a process takes before others have their turn. -/
def share : Nat := 200

/-- Lets the process run on. -/
def advance (h : Host) : Host :=
  match h.latest with
  | none => h
  | some (child, p) =>
    let (world, p) := Program.advance share h.world p
    { h with world, latest := some (child, p) }

/-- The process that has ended, and how. -/
def ended? (h : Host) : Option (Nat × ExitStatus) :=
  h.latest.bind fun (child, p) => p.status?.map (child, ·)

/-- When the process goes on; `none` when it has ended. -/
def nextTime? (h : Host) : Option Nat :=
  h.latest.bind fun (_, p) =>
    if p.status?.isSome then none
    else some ((p.sleepsUntil? h.world.clock).getD (h.world.clock + 1))

end Host

end Gateway.App
