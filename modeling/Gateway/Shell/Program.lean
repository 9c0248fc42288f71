import Gateway.App.Environment
import Gateway.App.Signal
import Gateway.Files
import Gateway.Shell.Script
import Gateway.Text.Utf8

/-! Running programs: shells with the commands they carry out, and what signals do to them. -/
namespace Gateway.Shell
open App (Environment ExitStatus)

/-- What programs share: the files, the time in milliseconds, and the signals that were sent to
their parent. -/
structure World where
  files : Files
  clock : Nat
  toParent : List Nat

/-- What is to be done with the status of a command. -/
inductive Frame where
  | before (next : Node)
  | onSuccess (next : Node)
  | onFailure (next : Node)
  | negate
  | tested (untilTrue : Bool) (test body : Node)
  | repeated (untilTrue : Bool) (test body : Node)
  | chosen (yes no : Node)
  | each (name : String) (rest : List String) (body : Node)
  /-- What a subshell's end restores. -/
  | subshell (environment : Environment) (traps : List (Nat × String)) (arguments : List String)
      (here : List Bytes)
  /-- The status before a trap's action. -/
  | trapped (status : Nat)
  /-- The status that the program is ending with. -/
  | leaving (status : Nat)

inductive Control where
  | run (n : Node)
  | finished (status : Nat)
  | asleep (wake : Nat) (interruptible : Bool)
  | ended (status : ExitStatus)

structure Program where
  pid : Nat
  parent : Nat
  here : List Bytes
  environment : Environment
  /-- The program's name and its arguments. -/
  arguments : List String
  /-- What is done on a signal, 0 standing for the end; an empty action ignores it. -/
  traps : List (Nat × String)
  /-- Signals whose action is still to be run. -/
  pending : List Nat
  /-- When the latest background command is through. -/
  background : Nat
  lastStatus : Nat
  control : Control
  frames : List Frame

namespace Program

/-- What a signal does: nothing, an action to be run later, or the end. -/
def receive (p : Program) (signal : Nat) : Program :=
  let dead := { p with control := .ended (.signalled signal) }
  match p.control with
  | .ended _ => p
  | _ =>
    if signal == 9 then dead
    else match p.traps.lookup signal with
      | some "" => p
      | some _ => { p with pending := p.pending ++ [signal] }
      | none => if App.isHarmless signal || signal == 0 then p else dead

def status? (p : Program) : Option ExitStatus :=
  match p.control with
  | .ended status => some status
  | _ => none

/-- The value of a parameter that is not a list and has no word to stand in for it. -/
def plainParameter (p : Program) (name : String) : String :=
  match name with
  | "$" => toString p.pid
  | "PPID" => toString p.parent
  | "?" => toString p.lastStatus
  | "#" => toString (p.arguments.length - 1)
  | "!" => toString (p.pid + 1)
  | "@" | "*" => " ".intercalate p.arguments.tail
  | _ => match name.toNat? with
    | some n => p.arguments.getD n ""
    | none => (p.environment.lookup name).getD ""

/-- The value of a parameter; after its name there may be a word that stands in for a value that is
missing or empty, or for one that is there. -/
def parameter (p : Program) (name : String) : String :=
  let plain := name.toList.takeWhile isNameChar
  let value := p.plainParameter (String.ofList plain)
  match name.toList.drop plain.length with
  | ':' :: '-' :: word | '-' :: word => if value == "" then String.ofList word else value
  | ':' :: '+' :: word | '+' :: word => if value == "" then "" else String.ofList word
  | _ => p.plainParameter name

/-- Splits a value at blanks: whether one stands in front, the fields, and whether one stands at the
end. -/
def splitFields (value : String) : Bool × List String × Bool :=
  let isBlank (c : Char) : Bool := c == ' ' || c == '\t' || c == '\n'
  let cs := value.toList
  let fields := (cs.foldr (fun c (acc : List (List Char)) =>
    if isBlank c then [] :: acc
    else match acc with
      | f :: rest => (c :: f) :: rest
      | [] => [[c]]) [[]]).filter (!·.isEmpty)
  (cs.head?.any isBlank, fields.map String.ofList, cs.getLast?.any isBlank)

/-- Joins fields onto those before, the last of which is still open when there is one. -/
def extendFields (current : Option String) (fields : List String) : List String × Option String :=
  match fields with
  | [] => ([], current)
  | first :: rest =>
    let all := (current.getD "" ++ first) :: rest
    (all.dropLast, all.getLast?)

/-- The fields that a word stands for. -/
def expand (p : Program) (w : Word) : List String :=
  go none w
where
  go : Option String → Word → List String
    | current, [] => current.toList
    | current, .text s :: rest => go (some (current.getD "" ++ s)) rest
    | current, .parameter name quoted :: rest =>
      if quoted && name == "@" then
        let (closed, current) := extendFields current p.arguments.tail
        closed ++ go current rest
      else if quoted then go (some (current.getD "" ++ p.parameter name)) rest
      else
        let (starts, fields, ends) := splitFields (p.parameter name)
        let (before, current) := if starts then (current.toList, none) else ([], current)
        let (closed, current) := extendFields current fields
        let (after, current) := if ends then (current.toList, none) else ([], current)
        before ++ closed ++ after ++ go current rest

/-- A word as one string. -/
def expandOne (p : Program) (w : Word) : String :=
  String.join (w.map fun
    | .text s => s
    | .parameter name _ => p.parameter name)

def utf8 (s : String) : Bytes := Text.Utf8.encode s

/-- The files as the program sees them. -/
def view (w : World) (p : Program) : Files := { w.files with here := p.here }

def lookup (w : World) (p : Program) (path : String) : Except FileError Gateway.Node :=
  (view w p).lookup (utf8 path)

/-- The directory that a new file would be in. -/
def parentPath (path : String) : Bytes :=
  let bs := utf8 path
  match Files.components bs with
  | [] | [_] => if Files.isAbsolute bs then [47] else [46]
  | names => (if Files.isAbsolute bs then [47] else []) ++ [47].intercalate names.dropLast

/-- Changes the content of a file, which is made if it is not there; `none` when it cannot be. -/
def change (w : World) (p : Program) (path : String) (f : Bytes → Bytes) : Option World :=
  let put (content : Bytes) : World :=
    let files := (view w p).put (utf8 path) (.file content (w.clock / 1000))
    { w with files := { files with here := w.files.here } }
  if path == "/dev/null" then some w
  else match lookup w p path with
    | .ok (.file content _) => some (put (f content))
    | .error .notFound => match (view w p).lookup (parentPath path) with
      | .ok .directory => some (put (f []))
      | _ => none
    | _ => none

/-- Opens what is redirected, and tells where output goes; `none` when something cannot be opened. -/
def redirect (p : Program) (w : World) : List Redirect → Option String → Option (World × Option String)
  | [], out => some (w, out)
  | ⟨.other, _⟩ :: rest, out => redirect p w rest out
  | ⟨.input, target⟩ :: rest, out =>
    match lookup w p (p.expandOne target) with
    | .ok _ => redirect p w rest out
    | .error _ => none
  | ⟨.write, target⟩ :: rest, _ =>
    let path := p.expandOne target
    (change w p path fun _ => []).bind fun w => redirect p w rest (some path)
  | ⟨.append, target⟩ :: rest, _ =>
    let path := p.expandOne target
    (change w p path id).bind fun w => redirect p w rest (some path)

/-- Characters after a backslash that stand for others. -/
def unescape : List Char → List Char
  | '\\' :: c :: rest =>
    match c with
    | 'n' => '\n' :: unescape rest
    | 't' => '\t' :: unescape rest
    | '\\' => '\\' :: unescape rest
    | _ => '\\' :: c :: unescape rest
  | c :: rest => c :: unescape rest
  | [] => []

/-- Puts arguments into a format. -/
def format : List Char → List String → List Char
  | '%' :: 's' :: rest, args => (args.headD "").toList ++ format rest args.tail
  | '%' :: 'd' :: rest, args => (args.headD "0").toList ++ format rest args.tail
  | '%' :: '%' :: rest, args => '%' :: format rest args
  | c :: rest, args => c :: format rest args
  | [], _ => []

/-- What a test on files and strings says. -/
def holds (w : World) (p : Program) : List String → Bool
  | "!" :: rest => !holds w p rest
  | ["-n", s] => s != ""
  | ["-z", s] => s == ""
  | ["-e", path] => (lookup w p path).toOption.isSome
  | ["-d", path] => (lookup w p path).toOption == some .directory
  | ["-f", path] => (lookup w p path).toOption.any (· != .directory)
  | [a, "=", b] | [a, "-eq", b] => a == b
  | [a, "!=", b] | [a, "-ne", b] => a != b
  | [a, "-gt", b] | [b, "-lt", a] => b.toNat?.any fun n => a.toNat?.any (n < ·)
  | [a, "-ge", b] | [b, "-le", a] => b.toNat?.any fun n => a.toNat?.any (n ≤ ·)
  | [s] => s != ""
  | _ => false

/-- Commands that only say something: their status and their output. -/
def say? (w : World) (p : Program) : List String → Option (Nat × String)
  | [":"] | ["true"] => some (0, "")
  | ":" :: _ | "true" :: _ | "umask" :: _ | "set" :: _ => some (0, "")
  | "false" :: _ => some (1, "")
  | "echo" :: "-n" :: args => some (0, String.ofList (unescape (" ".intercalate args).toList))
  | "echo" :: args => some (0, String.ofList (unescape (" ".intercalate args).toList) ++ "\n")
  | "printf" :: f :: args => some (0, String.ofList (format (unescape f.toList) args))
  | "pwd" :: _ => some (0, Text.Utf8.display (47 :: [47].intercalate p.here) ++ "\n")
  | "cat" :: paths =>
    some (paths.foldl (fun (status, text) path => match (view w p).read (utf8 path) with
      | .ok content => (status, text ++ Text.Utf8.display content)
      | .error _ => (1, text)) (0, ""))
  | ["printenv", name] =>
    some (match p.environment.lookup name with
      | some value => (0, value ++ "\n")
      | none => (1, ""))
  | "read" :: _ => some (1, "")
  | ["env"] => some (0, String.join (p.environment.map fun (n, v) => n ++ "=" ++ v ++ "\n"))
  | "test" :: args => some (if holds w p args then 0 else 1, "")
  | "[" :: args => some (if args.getLast? == some "]" && holds w p args.dropLast then 0 else 1, "")
  | _ => none

/-- A decimal number with an optional unit, in milliseconds. -/
def duration? (s : String) : Option Nat := do
  let cs := s.toList
  let whole := cs.takeWhile (·.isDigit)
  let (fraction, rest) : List Char × List Char := match cs.drop whole.length with
    | '.' :: rest => (rest.takeWhile Char.isDigit, rest.dropWhile Char.isDigit)
    | rest => ([], rest)
  guard (!(whole.isEmpty && fraction.isEmpty))
  let value (cs : List Char) : Nat := cs.foldl (fun n c => n * 10 + (c.toNat - 48)) 0
  let millis := value whole * 1000 + value ((fraction ++ ['0', '0', '0']).take 3)
  match rest with
  | [] | ['s'] => some millis
  | ['m'] => some (millis * 60)
  | ['h'] => some (millis * 3600)
  | ['d'] => some (millis * 86400)
  | _ => none

def durations? (args : List String) : Option Nat :=
  if args.isEmpty then none
  else args.foldl (fun total s => do some ((← total) + (← duration? s))) (some 0)

/-- The signal and the targets of a `kill`. -/
def killArguments? : List String → Option (Nat × List String)
  | "-s" :: name :: targets => (App.signalNumber? name).map (·, targets)
  | "--" :: targets => some (15, targets)
  | arg :: targets =>
    match arg.toList with
    | '-' :: name => (App.signalNumber? (String.ofList name)).map (·, targets)
    | _ => some (15, arg :: targets)
  | [] => none

/-- Sends a signal to the program itself or to its parent, and tells whether there is such a
target. -/
def send (w : World) (p : Program) (signal : Nat) (target : String) : World × Program × Bool :=
  if target == toString p.pid || target == "0" then (w, p.receive signal, true)
  else if target == toString p.parent then ({ w with toParent := w.toParent ++ [signal] }, p, true)
  else (w, p, false)

def sendAll (w : World) (p : Program) (signal : Nat) : List String → World × Program × Bool
  | [] => (w, p, true)
  | target :: rest =>
    let (w, p, ok) := send w p signal target
    let (w, p, more) := sendAll w p signal rest
    (w, p, ok && more)

/-- Sets what is done on signals: nothing, the usual, or an action. An unknown signal is an error. -/
def setTraps (p : Program) (action : String) (names : List String) : Program :=
  let read := names.map fun n => if n == "EXIT" then some 0 else App.signalNumber? n
  let numbers := read.filterMap id
  let kept := p.traps.filter (!numbers.contains ·.1)
  { p with
    traps := if action == "-" then kept else kept ++ numbers.map (·, action)
    control := .finished (if read.all (·.isSome) then 0 else 1) }

/-- Leaves the innermost subshell, or the program. -/
def leave (p : Program) (status : Nat) : Program :=
  { p with
    control := .finished status
    frames := p.frames.dropWhile fun
      | .subshell .. => false
      | _ => true }

/-- Ends the innermost loop, or begins its next turn. -/
def leaveLoop (p : Program) (again : Bool) : Program :=
  let isLoop : Frame → Bool := fun
    | .repeated .. | .each .. => true
    | _ => false
  let frames := p.frames.dropWhile (!isLoop ·)
  { p with control := .finished 0, frames := if again then frames else frames.tail }

def shells : List String := ["sh", "dash", "bash", "/bin/sh", "/bin/dash", "/bin/bash", "/usr/bin/sh",
  "/usr/bin/bash", "/usr/bin/dash"]

/-- Runs a script's text; one that is ill-formed fails. -/
def runText (p : Program) (script : String) : Program :=
  match parse? script with
  | some n => { p with control := .run n }
  | none => { p with control := .finished 2 }

/-- Becomes a shell that runs a script with arguments. -/
def becomeShell (w : World) (p : Program) (name : String) : List String → Program
  | "-c" :: script :: args =>
    runText { p with arguments := if args.isEmpty then [name] else args } script
  | "-e" :: rest => becomeShell w p name rest
  | path :: args =>
    match (view w p).read (utf8 path) with
    | .ok content => runText { p with arguments := path :: args } (Text.Utf8.display content)
    | .error _ => { p with control := .finished 2 }
  | [] => { p with control := .finished 0 }

/-- The name of a program without the directories it is looked for in. -/
def plainName (name : String) : String :=
  match ["/bin/", "/usr/bin/"].find? (·.toList.isPrefixOf name.toList) with
  | some directory => String.ofList (name.toList.drop directory.length)
  | none => name

/-- Commands that change the program or the world. -/
def act? (w : World) (p : Program) : List String → Option (World × Program)
  | "exit" :: args =>
    let status := match args with
      | n :: _ => ((n.toNat?).map (· % 256)).getD 2
      | [] => p.lastStatus
    some (w, p.leave status)
  | ["cd", path] => match lookup w p path with
    | .ok .directory =>
      some (w, { p with here := ((view w p).moveTo (utf8 path)).here, control := .finished 0 })
    | _ => some (w, { p with control := .finished 2 })
  | "trap" :: action :: names => some (w, p.setTraps action names)
  | "kill" :: args => match killArguments? args with
    | some (signal, targets) =>
      let (w, q, ok) := sendAll w { p with control := .finished 0 } signal targets
      some (w, if ok then q else { q with control := .finished 1 })
    | none => some (w, { p with control := .finished 2 })
  | "sleep" :: args => match durations? args with
    | some millis => some (w, { p with control := .asleep (w.clock + millis) false })
    | none => some (w, { p with control := .finished 1 })
  | "wait" :: _ => some (w, { p with control := .asleep p.background true })
  | "break" :: _ => some (w, p.leaveLoop false)
  | "continue" :: _ => some (w, p.leaveLoop true)
  | "shift" :: _ => some (w, { p with
      arguments := p.arguments.take 1 ++ p.arguments.drop 2
      control := .finished 0 })
  | "eval" :: words => some (w, p.runText (" ".intercalate words))
  | "touch" :: paths =>
    some (paths.foldl (fun (w, q) path => match change w p path id with
      | some w => (w, q)
      | none => (w, { q with control := .finished 1 })) (w, { p with control := .finished 0 }))
  | "mkdir" :: paths =>
    let made (path : String) : Files := (view w p).put (utf8 path) .directory
    some (paths.foldl (fun (w, q) path => match lookup w p path with
      | .error .notFound => ({ w with files := { made path with here := w.files.here } }, q)
      | _ => (w, { q with control := .finished 1 })) (w, { p with control := .finished 0 }))
  | "export" :: pairs =>
    some (w, pairs.foldl (fun q pair => match pair.splitOn "=" with
      | name :: value :: more =>
        { q with environment := q.environment.set name ("=".intercalate (value :: more)) }
      | _ => q) { p with control := .finished 0 })
  | "unset" :: names => some (w, { p with
      environment := p.environment.filter (!names.contains ·.1)
      control := .finished 0 })
  | _ => none

/-- Whether a program of this name can be found. -/
def isProgram (w : World) (p : Program) (name : String) : Bool :=
  let found (path : Bytes) : Bool := ((view w p).lookup path).toOption == some .program
  if name.toList.contains '/' then found (utf8 name)
  else (Bytes.splitOn 58 (utf8 ((p.environment.lookup "PATH").getD "/bin:/usr/bin"))).any fun d =>
    found (d ++ 47 :: utf8 name)

/-- A simple command whose words are known. Its output goes to a file or is not seen. -/
def runWords (w : World) (p : Program) (words : List String) (out : Option String) :
    World × Program :=
  match words with
  | [] => (w, { p with control := .finished 0 })
  | "exec" :: [] => (w, { p with control := .finished 0 })
  | "exec" :: name :: args =>
    let q := { p with frames := [], traps := p.traps.filter (·.2 == "") }
    if shells.contains name then (w, becomeShell w q name args)
    else (w, { q with control := .run (.simple [] ((name :: args).map fun s => [.text s]) []) })
  | name :: args =>
    if shells.contains name then
      let frame := Frame.subshell p.environment p.traps p.arguments p.here
      (w, becomeShell w { p with frames := frame :: p.frames, traps := [] } name args)
    else
      let words := plainName name :: args
      match say? w p words with
      | some (status, text) =>
        let w := match out with
          | some path => (change w p path (· ++ utf8 text)).getD w
          | none => w
        (w, { p with control := .finished status })
      | none => match act? w p words with
        | some result => result
        | none => (w, { p with control := .finished (if isProgram w p name then 0 else 127) })

/-- The time a command in the background takes; others than a sleep are done at once. -/
def backgroundMillis (p : Program) : Node → Nat
  | .simple _ words _ => match words.flatMap p.expand with
    | "sleep" :: args => (durations? args).getD 0
    | _ => 0
  | _ => 0

/-- Begins a command. -/
def begin (w : World) (p : Program) : Node → World × Program
  | .simple assigned words redirects =>
    let values := assigned.map fun (name, value) => (name, p.expandOne value)
    let fields := words.flatMap p.expand
    let p := { p with environment := values.foldl (fun env (n, v) => env.set n v) p.environment }
    match redirect p w redirects none with
    | some (w, out) => runWords w p fields out
    | none => (w, { p with control := .finished 2 })
  | .sequence first second =>
    (w, { p with control := .run first, frames := .before second :: p.frames })
  | .conjunction first second =>
    (w, { p with control := .run first, frames := .onSuccess second :: p.frames })
  | .disjunction first second =>
    (w, { p with control := .run first, frames := .onFailure second :: p.frames })
  | .negation n => (w, { p with control := .run n, frames := .negate :: p.frames })
  | .loop untilTrue test body =>
    (w, { p with control := .run test, frames := .tested untilTrue test body :: p.frames })
  | .branch test yes no =>
    (w, { p with control := .run test, frames := .chosen yes no :: p.frames })
  | .each name words body =>
    (w, { p with
      control := .finished 0
      frames := .each name (words.flatMap p.expand) body :: p.frames })
  | .subshell n =>
    (w, { p with
      control := .run n
      frames := .subshell p.environment p.traps p.arguments p.here :: p.frames })
  | .background n =>
    let millis := p.backgroundMillis n
    let p := { p with background := max p.background (w.clock + millis) }
    let now := Node.disjunction (.subshell n) .nothing
    (w, { p with control := if millis = 0 then .run now else .finished 0 })

/-- Goes on after a command with this status. -/
def resume (p : Program) (status : Nat) : Frame → Program
  | .before next => { p with control := .run next }
  | .onSuccess next => if status = 0 then { p with control := .run next } else p
  | .onFailure next => if status = 0 then p else { p with control := .run next }
  | .negate => { p with control := .finished (if status = 0 then 1 else 0) }
  | .tested untilTrue test body =>
    if (status == 0) == untilTrue then { p with control := .finished 0 }
    else { p with control := .run body, frames := .repeated untilTrue test body :: p.frames }
  | .repeated untilTrue test body =>
    { p with control := .run test, frames := .tested untilTrue test body :: p.frames }
  | .chosen yes no => { p with control := .run (if status = 0 then yes else no) }
  | .each name rest body => match rest with
    | [] => p
    | value :: rest => { p with
        environment := p.environment.set name value
        control := .run body
        frames := .each name rest body :: p.frames }
  | .subshell environment traps arguments here => { p with environment, traps, arguments, here }
  | .trapped status => { p with control := .finished status }
  | .leaving status => { p with control := .finished status }

/-- Ends with a status, after the action that was set for the end. -/
def finish (p : Program) (status : Nat) : Program :=
  match p.traps.lookup 0 with
  | none => { p with control := .ended (.exited status) }
  | some action =>
    { p with frames := [.leaving status], traps := p.traps.filter (·.1 != 0) }.runText action

/-- One step. A program that sleeps or has ended does nothing. -/
def step (w : World) (p : Program) : World × Program :=
  match p.control with
  | .run n => begin w p n
  | .ended _ => (w, p)
  | .asleep wake interruptible =>
    match interruptible, p.pending with
    | true, signal :: _ => (w, { p with control := .finished (128 + signal) })
    | _, _ => (w, if wake ≤ w.clock then { p with control := .finished 0 } else p)
  | .finished status =>
    let p := { p with lastStatus := status }
    match p.pending with
    | signal :: pending =>
      let action := (p.traps.lookup signal).getD ""
      (w, { p with frames := .trapped status :: p.frames, pending }.runText action)
    | [] => match p.frames with
      | frame :: frames => (w, { p with frames }.resume status frame)
      | [] => (w, p.finish status)

/-- Whether nothing happens before a later time, and which. -/
def sleepsUntil? (clock : Nat) (p : Program) : Option Nat :=
  match p.control with
  | .asleep wake interruptible =>
    if wake ≤ clock || (interruptible && !p.pending.isEmpty) then none else some wake
  | _ => none

/-- Steps until the program sleeps, has ended, or has had its share. -/
def advance : Nat → World → Program → World × Program
  | 0, w, p => (w, p)
  | fuel + 1, w, p =>
    if p.status?.isSome || (p.sleepsUntil? w.clock).isSome then (w, p)
    else
      let (w, p) := step w p
      advance fuel w p

/-- A program as it is launched. -/
def launch (pid parent : Nat) (here : List Bytes) (env : Environment) (program : String)
    (args : List String) : Program :=
  { pid, parent, here
    environment := env
    arguments := program :: args
    traps := []
    pending := []
    background := 0
    lastStatus := 0
    control := .run (.simple [] (([.text "exec"] : Word) :: (program :: args).map fun s => [.text s]) [])
    frames := [] }

end Program

end Gateway.Shell
