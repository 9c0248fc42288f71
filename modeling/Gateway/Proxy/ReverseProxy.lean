import Gateway.Config.Settings
import Gateway.Files
import Gateway.Http1.Outbound
import Gateway.Http1.Reply
import Gateway.Metrics
import Gateway.Proxy.Forwarding
import Gateway.Proxy.Transport

/-! Sending a request on to the target, and what the client gets for each way that can end. -/
namespace Gateway.Proxy
open Http Http1

structure ReverseProxy where
  target : Target
  transport : Transport
  /-- Whether what requests say of earlier hops is trusted. -/
  trusted : Bool
  /-- The page that stands in for an answer that did not come. -/
  badGatewayPage : Option Bytes

/-- One error in a chain of errors, each caused by the next. -/
inductive Cause where
  | lengthLimit
  | other
  deriving DecidableEq

/-- How an attempt to reach the target ended. -/
inductive Outcome where
  | failed (chain : List Cause)
  | answered (response : Response ResponseHead)

namespace ReverseProxy

def readPage (files : Files) (path : String) : Option Bytes :=
  if path = "" then none else (files.read (Text.Utf8.encode path)).toOption

def ofSettings (s : Config.Settings) (files : Files) : Except TargetError ReverseProxy := do
  let target ← Target.parse s.targetUrl
  let transport := Transport.choose target.scheme.text (s.socket?.bind socketPath?) s.proxy.h2c
  .ok ⟨target, transport, s.proxy.forwardHeaders, readPage files s.proxy.badGatewayPage⟩

/-- The answer when none came: the page, if there is one. -/
def badGateway (p : ReverseProxy) : Response ResponseHead :=
  match p.badGatewayPage with
  | some page =>
    ⟨⟨.badGateway, .ofFields [(.contentType, .ofLatin1 "text/html" (by decide))]⟩, .whole page⟩
  | none => ⟨⟨.badGateway, ∅⟩, .empty⟩

/-- Some error of a chain is that of a body over the limit. -/
def isTooLarge : List Cause → Bool
  | [] => false
  | cause :: rest => cause == .lengthLimit || isTooLarge rest

/-- What a chain of errors is counted as. -/
def failureKind (chain : List Cause) : RelayFailure :=
  if isTooLarge chain then .bodyTooLarge else .badGateway

def failureResponse (p : ReverseProxy) : RelayFailure → Response ResponseHead
  | .bodyTooLarge => ⟨⟨.contentTooLarge, ∅⟩, .empty⟩
  | .badGateway => p.badGateway

/-- The client's response, and what is counted when it is not the target's. A change of protocol is
passed on only to a client that asked for it and whose connection can change. -/
def conclude (p : ReverseProxy) (upgradable : Bool) :
    Outcome → Response ResponseHead × Option RelayFailure
  | .failed chain => (p.failureResponse (failureKind chain), some (failureKind chain))
  | .answered r =>
    if r.head.status = .switchingProtocols then
      if upgradable then (⟨r.head, .empty⟩, none) else (p.badGateway, some .badGateway)
    else (⟨⟨r.head.status, removeHopByHop r.head.headers⟩, r.body⟩, none)

end ReverseProxy

/-- All that the target sends back, and how long it takes. -/
structure Transmission where
  bytes : Bytes
  delayMillis : Nat

/-- What answers at the other end of the transport; `none` when nothing does. -/
abbrev Origin := Option (Sent → Transmission)

/-- A request on its way through the proxy. -/
structure Inbound where
  head : RequestHead
  body : Body
  /-- The most octets of the body that are passed on. -/
  bodyLimit : Option Nat
  clientIp : Option Net.IpAddr
  scheme : ListenerScheme
  /-- Whether the client's connection can change to another protocol. -/
  canUpgrade : Bool

/-- What came of sending a request on. -/
structure Forwarded where
  response : Response ResponseHead
  failure : Option RelayFailure
  sent : Option Sent
  delayMillis : Nat

namespace ReverseProxy

def causes : SendFailure → List Cause
  | .tooLong => [.other, .lengthLimit]
  | _ => [.other]

/-- The client of the target: how a request to it ended, what was sent, and how long that took. -/
def exchange (origin : Origin) (i : Inbound) (r : RequestHead) : Outcome × Option Sent × Nat :=
  match origin with
  | none => (.failed [.other], none, 0)
  | some answer =>
    match send r i.body i.bodyLimit with
    | .error e => (.failed (causes e), none, 0)
    | .ok sent =>
      let t := answer sent
      match reply? r.method t.bytes with
      | some response => (.answered response, some sent, t.delayMillis)
      | none => (.failed [.other], some sent, t.delayMillis)

/-- What stands behind the proxy's error for a head that cannot be rewritten. -/
def rewriteCauses : RewriteError → List Cause
  | .tooLong => [.other]

/-- Rewrites a request and hands it to a client. Each error is the cause of one of the proxy. -/
def attempt (p : ReverseProxy) (client : RequestHead → Outcome × Option Sent × Nat) (i : Inbound) :
    Outcome × Option Sent × Nat :=
  match (rewrite p.target ⟨i.clientIp, i.scheme, p.trusted⟩).run.run i.head with
  | (.error e, _) => (.failed (.other :: rewriteCauses e), none, 0)
  | (.ok _, r) =>
    match client r with
    | (.failed chain, sent, delay) => (.failed (.other :: chain), sent, delay)
    | (.answered response, sent, delay) => (.answered response, sent, delay)

def forwardThrough (p : ReverseProxy) (client : RequestHead → Outcome × Option Sent × Nat)
    (i : Inbound) : Forwarded :=
  let upgradable := i.canUpgrade && (upgradeType? i.head.headers).isSome
  let (outcome, sent, delay) := p.attempt client i
  let (response, failure) := p.conclude upgradable outcome
  ⟨response, failure, sent, delay⟩

def forward (p : ReverseProxy) (origin : Origin) (i : Inbound) : Forwarded :=
  p.forwardThrough (exchange origin i) i

end ReverseProxy

end Gateway.Proxy
