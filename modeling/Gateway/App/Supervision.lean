import Gateway.App.Command
import Gateway.App.Signal
import Gateway.Config.Settings
import Gateway.Files
import Gateway.Metrics

/-! Starting and stopping the application. Any number of starts and stops may be under way at once;
each goes on in steps that interleave with those of the others and with the ends of processes. What
the system around them does (a process that ends, the answer to a launch or a signal, time that runs
out) comes with the step. -/
namespace Gateway.App

inductive SpawnError where
  | file (e : FileError)
  /-- A NUL octet in the command, an argument or the environment. -/
  | nulByte
  deriving DecidableEq

def SpawnError.message : SpawnError → String
  | file e => e.message
  | nulByte => "nul byte found in provided data"

inductive SupervisorError where
  | command (e : CommandError)
  | missingDirectory (path : String)
  | directory (path : String) (e : FileError)
  | alreadyRunning
  | spawn (e : SpawnError)
  /-- The process is no longer the caller's, since another has collected it. -/
  | wait
  | exited (status : ExitStatus)
  /-- The system does not let the process be signalled. -/
  | signalRefused
  deriving DecidableEq

def SupervisorError.message : SupervisorError → String
  | command e => e.message
  | missingDirectory path => "working directory does not exist: " ++ path
  | directory path e => "cannot access working directory " ++ path ++ ": " ++ e.message
  | alreadyRunning => "upstream process is already running"
  | spawn e => "start upstream command: " ++ e.message
  | wait => "wait upstream command: No child processes (os error 10)"
  | exited status => "upstream process exited unexpectedly (" ++ status.text ++ ")"
  | signalRefused => "signal upstream process: EPERM: Operation not permitted"

/-- A process as its starter and the system know it. Its number may be given to another process once
it has been reaped, by its starter or by somebody else. -/
inductive Life where
  | alive
  | dead (status : ExitStatus)
  | reaped (status : ExitStatus)
  deriving DecidableEq

structure Child where
  pid : Nat
  life : Life
  /-- Whether those who wait for its end have been told. -/
  announced : Bool
  deriving DecidableEq

/-- What starts and stops share under a lock: the child that runs, by its place in the order of
launches, and whether a stop has asked for its end. -/
inductive Slot where
  | idle
  | running (child : Nat) (stopping : Bool)
  deriving DecidableEq

/-- How far a start has come. -/
inductive StartPhase where
  | called
  /-- The command and the working directory are good. -/
  | ready (command : Command)
  | waiting (child : Nat)
  /-- The child is reaped and the slot still holds it. Its status is known unless another has
  collected it. -/
  | reaped (child : Nat) (status : Option ExitStatus)
  /-- The slot is idle again and nobody has been told. -/
  | released (child : Nat) (status : Option ExitStatus) (stopping : Bool)
  | returned (result : Except SupervisorError Unit)

/-- How far a stop has come, with the child that it found. -/
inductive StopPhase where
  | called
  /-- The slot is marked and no signal has been sent. -/
  | marked (child : Nat)
  | signalled (child : Nat)
  /-- The time to exit is over. -/
  | overdue (child : Nat)
  | killed (child : Nat)
  | returned (found : Option Nat) (result : Except SupervisorError Unit)

/-- What the start has returned, if it has. -/
def StartPhase.result? : StartPhase → Option (Except SupervisorError Unit)
  | returned result => some result
  | _ => none

/-- What the stop has returned, if it has. -/
def StopPhase.result? : StopPhase → Option (Except SupervisorError Unit)
  | returned _ result => some result
  | _ => none

structure Supervision where
  settings : Config.AppSettings
  slot : Slot
  children : List Child
  starts : List StartPhase
  stops : List StopPhase
  metrics : Metrics

/-- What the system says to a signal. -/
inductive SignalAnswer where
  | delivered
  | noSuchProcess
  | refused
  deriving DecidableEq

/-- One step of a start, of a stop or of the world. Starts and stops are known by the order of their
calls. -/
inductive Step where
  | callStart
  | callStop
  /-- The start looks at its command and at the working directory. -/
  | check (start : Nat) (directory : Except FileError Unit)
  /-- The start takes the lock and launches the command unless something runs. -/
  | launch (start : Nat) (answer : Except SpawnError Nat)
  | exit (child : Nat) (status : ExitStatus)
  /-- Somebody else reaps the child, so that waiting for it is going to fail. -/
  | collect (child : Nat)
  /-- The start learns that its child is dead, or that it has been collected. -/
  | reap (start : Nat)
  /-- The start takes the lock and makes the slot idle. -/
  | release (start : Nat)
  /-- The start tells those who wait, and returns. -/
  | announce (start : Nat)
  /-- The stop takes the lock and marks what runs. -/
  | mark (stop : Nat)
  | signal (stop : Nat) (answer : SignalAnswer)
  | timeOut (stop : Nat)
  /-- The stop learns that its child has ended, and returns. -/
  | notice (stop : Nat)

namespace Supervision

def new (settings : Config.AppSettings) : Supervision := ⟨settings, .idle, [], [], [], []⟩

def setStart (s : Supervision) (i : Nat) (p : StartPhase) : Supervision :=
  { s with starts := s.starts.set i p }

def setStop (s : Supervision) (i : Nat) (p : StopPhase) : Supervision :=
  { s with stops := s.stops.set i p }

def changeChild (s : Supervision) (c : Nat) (f : Child → Child) : Supervision :=
  { s with children := s.children.modify c f }

/-- The process number of what runs. -/
def pid? (s : Supervision) : Option Nat :=
  match s.slot with
  | .idle => none
  | .running c _ => (s.children[c]?).map (·.pid)

/-- What a start finds out before it takes the lock. The working directory counts when it is set. -/
def checked (settings : Config.AppSettings) (directory : Except FileError Unit) :
    Except SupervisorError Command :=
  match Command.parse settings.command settings.args with
  | .error e => .error (.command e)
  | .ok command =>
    if settings.workingDirectory = "" then .ok command
    else match directory with
      | .ok () => .ok command
      | .error .notFound => .error (.missingDirectory settings.workingDirectory)
      | .error e => .error (.directory settings.workingDirectory e)

/-- The child that was launched runs now. -/
def launched (s : Supervision) (i pid : Nat) : Supervision :=
  let s := s.setStart i (.waiting s.children.length)
  { s with
    slot := .running s.children.length false
    children := s.children ++ [⟨pid, .alive, false⟩]
    metrics := s.metrics.count .processStarts }

/-- An end that was asked for is as good as a success. -/
def isClean (status : ExitStatus) (stopping : Bool) : Bool := status.isSuccess || stopping

def resultOf : Option ExitStatus → Bool → Except SupervisorError Unit
  | some status, stopping => if isClean status stopping then .ok () else .error (.exited status)
  | none, _ => .error .wait

/-- An end is counted when its status is known. -/
def countExit (m : Metrics) : Option ExitStatus → Bool → Metrics
  | some status, stopping => m.count (.processExits (isClean status stopping))
  | none, _ => m

/-- Takes one step, if it can be taken now. -/
def step? (s : Supervision) : Step → Option Supervision
  | .callStart => some { s with starts := s.starts ++ [.called] }
  | .callStop => some { s with stops := s.stops ++ [.called] }
  | .check i directory =>
    match s.starts[i]? with
    | some .called => match checked s.settings directory with
      | .ok command => some (s.setStart i (.ready command))
      | .error e => some (s.setStart i (.returned (.error e)))
    | _ => none
  | .launch i answer =>
    match s.starts[i]? with
    | some (.ready _) => match s.slot, answer with
      | .running _ _, _ => some (s.setStart i (.returned (.error .alreadyRunning)))
      | .idle, .error e => some (s.setStart i (.returned (.error (.spawn e))))
      | .idle, .ok pid => some (s.launched i pid)
    | _ => none
  | .exit c status =>
    match s.children[c]? with
    | some ⟨_, .alive, _⟩ => some (s.changeChild c ({ · with life := .dead status }))
    | _ => none
  | .collect c =>
    match s.children[c]? with
    | some ⟨_, .dead status, _⟩ => some (s.changeChild c ({ · with life := .reaped status }))
    | _ => none
  | .reap i =>
    match s.starts[i]? with
    | some (.waiting c) => match s.children[c]? with
      | some ⟨_, .dead status, _⟩ =>
        some ((s.changeChild c ({ · with life := .reaped status })).setStart i
          (.reaped c (some status)))
      | some ⟨_, .reaped _, _⟩ => some (s.setStart i (.reaped c none))
      | _ => none
    | _ => none
  | .release i =>
    match s.starts[i]? with
    | some (.reaped c status) =>
      let stopping := match s.slot with
        | .running _ stopping => stopping
        | .idle => false
      some { s.setStart i (.released c status stopping) with slot := .idle }
    | _ => none
  | .announce i =>
    match s.starts[i]? with
    | some (.released c status stopping) =>
      let s := s.changeChild c ({ · with announced := true })
      some { s.setStart i (.returned (resultOf status stopping)) with
        metrics := countExit s.metrics status stopping }
    | _ => none
  | .mark i =>
    match s.stops[i]? with
    | some .called => match s.slot with
      | .idle => some (s.setStop i (.returned none (.ok ())))
      | .running c _ => some { s.setStop i (.marked c) with slot := .running c true }
    | _ => none
  | .signal i answer =>
    match s.stops[i]? with
    | some (.marked c) => some (s.setStop i (after c (.signalled c) answer))
    | some (.overdue c) => some (s.setStop i (after c (.killed c) answer))
    | _ => none
  | .timeOut i =>
    match s.stops[i]? with
    | some (.signalled c) => some (s.setStop i (.overdue c))
    | _ => none
  | .notice i =>
    match s.stops[i]? with
    | some (.signalled c) | some (.killed c) =>
      if (s.children[c]?).any (·.announced) then some (s.setStop i (.returned (some c) (.ok ())))
      else none
    | _ => none
where
  /-- A process that is not there any more is as good as signalled. -/
  after (c : Nat) (next : StopPhase) : SignalAnswer → StopPhase
    | .refused => .returned (some c) (.error .signalRefused)
    | _ => next

/-- The signal that a stop sends next, and to which process. -/
def nextSignal? (s : Supervision) (i : Nat) : Option (Nat × Nat) :=
  match s.stops[i]? with
  | some (.marked c) =>
    (s.children[c]?).map fun child => (child.pid, (StopSignal.ofSetting s.settings.stopSignal).number)
  | some (.overdue c) => (s.children[c]?).map fun child => (child.pid, StopSignal.kill.number)
  | _ => none

/-- Takes steps one after the other. -/
def run? (s : Supervision) : List Step → Option Supervision
  | [] => some s
  | e :: rest => (s.step? e).bind (run? · rest)

end Supervision

end Gateway.App
