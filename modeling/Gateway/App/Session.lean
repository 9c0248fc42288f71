import Gateway.App.Host

/-! Starts and stops carried out on a host, in an order that only depends on what is asked: the task
that is waited for goes first, then starts and stops as they were called, then the process, and then
time passes. -/
namespace Gateway.App

/-- A start or a stop by the order of calls. -/
inductive TaskId where
  | start (i : Nat)
  | stop (i : Nat)
  deriving DecidableEq

structure Session where
  supervision : Supervision
  host : Host
  /-- Milliseconds between the stop signal and the end by force. -/
  grace : Nat
  /-- When the grace of each stop is over. -/
  deadlines : List (Nat × Nat)

namespace Session

/-- The grace that is usual. -/
def usualGrace : Nat := 10000

def new (settings : Config.AppSettings) (host : Host) (grace : Nat) : Session :=
  ⟨.new settings, host, grace, []⟩

def take? (s : Session) (step : Step) : Option Session :=
  (s.supervision.step? step).map fun supervision => { s with supervision }

def settings (s : Session) : Config.AppSettings := s.supervision.settings

/-- Launches a command unless something runs. -/
def launch? (s : Session) (i : Nat) (command : Command) : Option Session :=
  let child := s.supervision.children.length
  let pid := s.host.pid + 1 + child
  if s.supervision.pid?.isSome then s.take? (.launch i (.ok pid))
  else match s.host.launch s.settings command pid with
    | .error e => s.take? (.launch i (.error e))
    | .ok program =>
      ({ s with host := { s.host with latest := some (child, program) } }).take?
        (.launch i (.ok pid))

def advanceStart? (s : Session) (i : Nat) : Option Session :=
  match s.supervision.starts[i]? with
  | some .called => s.take? (.check i (s.host.directory s.settings.workingDirectory))
  | some (.ready command) => s.launch? i command
  | some (.waiting _) => s.take? (.reap i)
  | some (.reaped ..) => s.take? (.release i)
  | some (.released ..) => s.take? (.announce i)
  | _ => none

def sendSignal? (s : Session) (i : Nat) : Option Session :=
  (s.supervision.nextSignal? i).bind fun (pid, number) =>
    let (answer, host) := s.host.signal pid number
    { s with host }.take? (.signal i answer)

def advanceStop? (s : Session) (i : Nat) : Option Session :=
  match s.supervision.stops[i]? with
  | some .called => s.take? (.mark i)
  | some (.marked _) =>
    { s with deadlines := (i, s.host.world.clock + s.grace) :: s.deadlines }.sendSignal? i
  | some (.signalled _) =>
    s.take? (.notice i) <|>
      (if (s.deadlines.lookup i).any (· ≤ s.host.world.clock) then s.take? (.timeOut i) else none)
  | some (.overdue _) => s.sendSignal? i
  | some (.killed _) => s.take? (.notice i)
  | _ => none

def advanceTask? (s : Session) : TaskId → Option Session
  | .start i => s.advanceStart? i
  | .stop i => s.advanceStop? i

def tasks (s : Session) : List TaskId :=
  (List.range s.supervision.starts.length).map .start
    ++ (List.range s.supervision.stops.length).map .stop

/-- One step of the first task that can take one. -/
def advanceAny? (s : Session) (first : Option TaskId) : Option Session :=
  (first.toList ++ s.tasks).findSome? s.advanceTask?

/-- Lets the process run on, and notes its end. -/
def advanceProcess (s : Session) : Session :=
  let s := { s with host := s.host.advance }
  match s.host.ended? with
  | some (child, status) => (s.take? (.exit child status)).getD s
  | none => s

/-- The next time at which something may happen. -/
def nextTime? (s : Session) : Option Nat :=
  ((s.host.nextTime?).toList ++ s.deadlines.map (·.2)).filter (s.host.world.clock < ·) |>.min?

def setClock (s : Session) (t : Nat) : Session :=
  { s with host := { s.host with world := { s.host.world with clock := t } } }

/-- Goes on until something holds, the time is over, or nothing can happen any more. -/
def runUntil (limit : Option Nat) (first : Option TaskId) (holds : Session → Bool) :
    Nat → Session → Session
  | 0, s => s
  | fuel + 1, s =>
    if holds s then s
    else match s.advanceAny? first with
      | some s => runUntil limit first holds fuel s
      | none =>
        let s := s.advanceProcess
        if holds s || (s.advanceAny? first).isSome then runUntil limit first holds fuel s
        else
          let next := match s.nextTime?, limit with
            | some t, some l => if t < l then some t else none
            | t, _ => t
          match next with
          | some t => runUntil limit first holds fuel (s.setClock t)
          | none => s.setClock (limit.getD s.host.world.clock)

/-- The most steps of one wait. -/
def patience : Nat := 1000000

/-- Whether a task has returned, and with what. -/
def result? (s : Session) : TaskId → Option (Except SupervisorError Unit)
  | .start i => s.supervision.starts[i]?.bind (·.result?)
  | .stop i => s.supervision.stops[i]?.bind (·.result?)

/-- Waits for a task to return, going on with that task first. -/
def await (s : Session) (task : TaskId) (first : Bool) : Session :=
  runUntil none (if first then some task else none) (·.result? task |>.isSome) patience s

/-- Calls a start that goes on while others are waited for. -/
def start (s : Session) : TaskId × Session :=
  (.start s.supervision.starts.length, (s.take? .callStart).getD s)

def stop (s : Session) : TaskId × Session :=
  (.stop s.supervision.stops.length, (s.take? .callStop).getD s)

/-- Waits for something to hold, for a time at most. -/
def waitFor (s : Session) (millis : Nat) (holds : Session → Bool) : Bool × Session :=
  let s := runUntil (some (s.host.world.clock + millis)) none holds patience s
  (holds s, s)

def isRunning (s : Session) : Bool := s.supervision.pid?.isSome

end Session

end Gateway.App
