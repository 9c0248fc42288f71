import Gateway.Cache.Exchange
import Gateway.Proxy.ReverseProxy
import Gateway.Proxy.Sendfile

/-! The way of a request to the application and of the response back: files are sent for responses
that name them, and responses are kept for later requests. -/
namespace Gateway.Server
open Http Proxy

structure Relay where
  proxy : ReverseProxy
  /-- Whether files are sent for the application. -/
  sendfile : Bool
  cache : Option Cache.ResponseCache

/-- What the server meets while it handles a request. -/
structure Surroundings where
  now : Cache.Time
  files : Files
  origin : Origin
  /-- The id for a request that has none. -/
  freshId : HeaderValue
  draws : Cache.Draws

/-- How a request ended. -/
inductive Ending where
  /-- The answer was not there in time. -/
  | timedOut
  | finished (response : Response ResponseHead) (failure : Option RelayFailure)

/-- How a request ended, what was sent on for it, and how long that took. -/
structure Passage where
  ending : Ending
  sent : Option Http1.Sent
  delayMillis : Nat

def Passage.atOnce (r : Response ResponseHead) : Passage := ⟨.finished r none, none, 0⟩

/-- A successful answer to CONNECT has no body. -/
def withoutTunnelBody (m : Method) (r : Response ResponseHead) : Response ResponseHead :=
  if m.bytes == .ofLatin1 "CONNECT" && 200 ≤ r.head.status.code && r.head.status.code < 300 then
    ⟨r.head, .empty⟩
  else r

namespace Relay

/-- The client's response for the application's. -/
def deliver (r : Relay) (files : Files) (request : RequestHead) (app : Response ResponseHead) :
    Response ResponseHead :=
  withoutTunnelBody request.method
    (Proxy.sendfile r.sendfile files (request.method == .head) request.headers app)

/-- Whether the client gets a file in place of the application's body. -/
def replaces (r : Relay) (app : ResponseHead) : Bool :=
  r.sendfile && app.headers.contains .xSendfile

/-- Stores what is captured of a response while the client reads it. A body that a file replaces is
not read. -/
def collect (r : Relay) (cache : Cache.ResponseCache) (returned : Cache.Returned)
    (now : Cache.Time) (draws : Cache.Draws) : Cache.ResponseCache :=
  match returned.capture with
  | some (capture, e) =>
    cache.settle (if r.replaces returned.head then capture else capture.drain) e now draws
  | none => cache

/-- Whether an answer that took this long comes too late. -/
def isLate (deadline : Option Nat) (delay : Nat) : Bool := deadline.any (· ≤ delay)

/-- Handles a request with nothing kept. -/
def handleUncached (r : Relay) (env : Surroundings) (deadline : Option Nat) (i : Inbound) :
    Passage :=
  let f := r.proxy.forward env.origin i
  if isLate deadline f.delayMillis then ⟨.timedOut, f.sent, f.delayMillis⟩
  else ⟨.finished (r.deliver env.files i.head f.response) f.failure, f.sent, f.delayMillis⟩

/-- The application as the cache sees it. An answer that comes too late is none; what was sent on
is noted. -/
def application (r : Relay) (env : Surroundings) (deadline : Option Nat) (i : Inbound) :
    Cache.Service (Option Forwarded) Passage := fun head body _ =>
  let f := r.proxy.forward env.origin { i with head, body }
  if isLate deadline f.delayMillis then (.error ⟨.timedOut, f.sent, f.delayMillis⟩, some f)
  else (.ok f.response, some f)

/-- Handles a request through the cache. A request that ends too late is given up while it waits:
nothing more is counted or stored for it. -/
def handleCached (r : Relay) (cache : Cache.ResponseCache) (env : Surroundings)
    (deadline : Option Nat) (i : Inbound) : Passage × Cache.ResponseCache :=
  match cache.serve (r.application env deadline i) i.head i.body env.now none with
  | (.error passage, _, cache) => (passage, cache)
  | (.ok returned, none, cache) =>
    (.atOnce (r.deliver env.files i.head ⟨returned.head, returned.body⟩), cache)
  | (.ok returned, some f, cache) =>
    (⟨.finished (r.deliver env.files i.head ⟨returned.head, returned.body⟩) f.failure, f.sent,
      f.delayMillis⟩, r.collect cache returned (env.now + f.delayMillis) env.draws)

/-- Handles a request within the deadline, which is in milliseconds. -/
def handle (r : Relay) (env : Surroundings) (deadline : Option Nat) (i : Inbound) :
    Passage × Relay :=
  let i := { i with
    head := { i.head with headers := announceSendfile r.sendfile i.head.headers } }
  match r.cache with
  | none => (r.handleUncached env deadline i, r)
  | some cache =>
    let (passage, cache) := r.handleCached cache env deadline i
    (passage, { r with cache := some cache })

end Relay

end Gateway.Server
