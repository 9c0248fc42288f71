import Gateway.App.Session
import Gateway.Net.Tls
import Gateway.Server.Stack

/-! The gateway from its start to its end: what can keep it from starting, and the order in which it
stops. -/
namespace Gateway.App

/-- Why a port cannot be listened on. -/
inductive BindError where
  | inUse
  | forbidden
  deriving DecidableEq

def BindError.message : BindError → String
  | inUse => "Address already in use (os error 98)"
  | forbidden => "Permission denied (os error 13)"

inductive LifecycleError where
  | proxy (e : Proxy.TargetError)
  | listener (port : UInt16) (e : BindError)
  | tls (e : Net.TlsError)
  | server (reason : String)
  | app (e : SupervisorError)

def LifecycleError.message : LifecycleError → String
  | proxy e => "failed to build reverse proxy: " ++ e.message
  | listener port e => "Failed to bind 0.0.0.0:" ++ toString port.toNat ++ ": " ++ e.message
  | tls e => "failed to load TLS certificate: " ++ e.message
  | server reason => "HTTP server failed: " ++ reason
  | app e => "upstream process failed: " ++ e.message

/-- How far the gateway has come. -/
inductive Stage where
  | serving
  /-- The application is being stopped; `joined` once its start has returned to the gateway, and
  `drained` once the server has ended. -/
  | stopping (outcome : Except LifecycleError Unit) (joined drained : Bool)
  /-- The stop has returned, and the gateway waits for the start to return. -/
  | joining (outcome : Except LifecycleError Unit) (drained : Bool)
  | draining (outcome : Except LifecycleError Unit)
  | ended (outcome : Except LifecycleError Unit)

/-- The gateway while it runs, with its application if it has one. -/
structure Service where
  supervision : Option Supervision
  stage : Stage

/-- What happens to the gateway. -/
inductive Event where
  /-- A step of the application's start or stop, or the end of its process. -/
  | supervise (step : Step)
  /-- A signal asks the gateway to end. -/
  | signalled
  | serverEnded (failure : Option String)
  | startReturned
  | stopReturned
  | drained (failure : Option String)

namespace Service

/-- The gateway calls the start of its application and begins to serve. -/
def new (s : Config.Settings) : Service :=
  ⟨if s.app.enabled then (Supervision.new s.app).step? .callStart else none, .serving⟩

/-- The application's start and stop are called by the gateway alone. -/
def isOwnCall : Step → Bool
  | .callStart | .callStop => true
  | _ => false

/-- What the start has returned. -/
def startResult? (s : Service) : Option (Except SupervisorError Unit) :=
  s.supervision.bind fun v => v.starts[0]?.bind (·.result?)

def stopResult? (s : Service) : Option (Except SupervisorError Unit) :=
  s.supervision.bind fun v => v.stops[0]?.bind (·.result?)

/-- Begins to end: the application, if there is one, is stopped first. -/
def shutDown (s : Service) (outcome : Except LifecycleError Unit) (joined drained : Bool) :
    Service :=
  match s.supervision with
  | none => ⟨none, if drained then .ended outcome else .draining outcome⟩
  | some supervision =>
    ⟨supervision.step? .callStop, .stopping outcome joined drained⟩

def afterApp (s : Service) (outcome : Except LifecycleError Unit) (drained : Bool) : Service :=
  { s with stage := if drained then .ended outcome else .draining outcome }

def serverOutcome : Option String → Except LifecycleError Unit
  | some reason => .error (.server reason)
  | none => .ok ()

/-- Takes up what happens, if it can happen now. -/
def step? (s : Service) (e : Event) : Option Service :=
  match e, s.stage with
  | .supervise step, _ =>
    if isOwnCall step then none
    else (s.supervision.bind (·.step? step)).map fun supervision =>
      { s with supervision := some supervision }
  | .signalled, .serving => some (s.shutDown (.ok ()) false false)
  | .serverEnded failure, .serving => some (s.shutDown (serverOutcome failure) false true)
  | .startReturned, .serving =>
    s.startResult?.map fun r => s.shutDown (r.mapError .app) true false
  | .stopReturned, .stopping outcome joined drained =>
    s.stopResult?.map fun _ =>
      if joined then s.afterApp outcome drained else { s with stage := .joining outcome drained }
  | .startReturned, .joining outcome drained =>
    s.startResult?.map fun _ => s.afterApp outcome drained
  | .drained failure, .draining outcome =>
    some { s with stage := .ended (match outcome with
      | .ok () => serverOutcome failure
      | .error e => .error e) }
  | _, _ => none

end Service

/-- What the system says to the gateway's wish to listen on a port. -/
abbrev Ports := UInt16 → Option BindError

/-- What has to succeed before anything is started: the proxy, the plain listener, the certificate
and the secure listener, in this order. -/
def prepare (s : Config.Settings) (files : Files) (ports : Ports) : Except LifecycleError Server := do
  let server ← (Server.ofSettings s files).mapError .proxy
  listen s.http.port
  if let some tls := s.http.tls then
    (Net.loadTls files tls).mapError .tls
    listen s.http.httpsPort
  .ok server
where
  listen (port : UInt16) : Except LifecycleError Unit :=
    match ports port with
    | some e => .error (.listener port e)
    | none => .ok ()

/-- The signals that ask the gateway to end. -/
def isEndSignal (n : Nat) : Bool := n == 15 || n == 2

/-- Goes through the service with its application on a host until it has ended; the server itself
does not fail. -/
def serve (session : Session) : Except LifecycleError Unit :=
  let start : TaskId := .start 0
  let asked (s : Session) : Bool := s.host.world.toParent.any isEndSignal
  let session := Session.runUntil none none
    (fun s => asked s || (s.result? start).isSome) Session.patience session
  let first := if asked session then Event.signalled else .startReturned
  let follow (service : Option Service) (e : Event) : Option Service := service.bind (·.step? e)
  let service := follow (some ⟨some session.supervision, .serving⟩) first
  let supervision := (service.bind (·.supervision)).getD session.supervision
  let session := { session with supervision }.await (.stop 0) true
  let session := session.await start false
  let service := service.map fun s => { s with supervision := some session.supervision }
  let stopped := follow service .stopReturned
  let joined := (follow stopped .startReturned) <|> stopped
  match follow joined (.drained none) with
  | some ⟨_, .ended outcome⟩ => outcome
  | _ => .ok ()

/-- Runs the gateway to its end. Without an application only a signal can end it. -/
def run (s : Config.Settings) (host : Host) (ports : Ports) : Except LifecycleError Unit := do
  discard (prepare s host.world.files ports)
  match (Service.new s).supervision with
  | some supervision => serve { Session.new s.app host Session.usualGrace with supervision }
  | none => .ok ()

end Gateway.App
