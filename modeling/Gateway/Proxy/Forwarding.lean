import Gateway.Http.Message
import Gateway.Net.Address
import Gateway.Proxy.HopByHop
import Gateway.Proxy.Target

/-! What becomes of a request's head on its way to the target. -/
namespace Gateway.Proxy
open Http

/-- The scheme of the listener that a request came in on. -/
inductive ListenerScheme where
  | http
  | https
  deriving DecidableEq

namespace ListenerScheme

instance : Inhabited ListenerScheme := ⟨http⟩

def value : ListenerScheme → HeaderValue
  | http => .ofLatin1 "http" (by decide)
  | https => .ofLatin1 "https" (by decide)

end ListenerScheme

/-- What is known of a request's sender, and whether what it says of earlier hops is trusted. -/
structure ForwardingContext where
  clientIp : Option Net.IpAddr
  scheme : ListenerScheme
  trusted : Bool

/-- The host that a request names: its first `Host`, else the authority of its URI. -/
def inboundHost? (r : RequestHead) : Option HeaderValue :=
  match r.headers.get? .host with
  | some v => some v
  | none => r.uri.authority.bind fun a => HeaderValue.ofBytes? a.bytes

/-- Sets a header when there is a value for it. -/
def insertSome (h : Headers) (n : HeaderName) : Option HeaderValue → Headers
  | some v => h.insert n v
  | none => h

/-- The addresses a request came through, the nearest last. -/
def forwardedFor? (h : Headers) (c : ForwardingContext) : Option HeaderValue :=
  let earlier := if c.trusted then h.texts .xForwardedFor else []
  let chain := earlier ++ (c.clientIp.map (·.text)).toList
  if chain.isEmpty then none
  else HeaderValue.ofBytes? ((Bytes.ofLatin1 ", ").intercalate chain)

/-- What an earlier hop said, when it is trusted and said anything. -/
def claimed? (h : Headers) (c : ForwardingContext) (n : HeaderName) : Option HeaderValue :=
  if c.trusted then (h.get? n).filter (!·.bytes.isEmpty) else none

def setForwarded (h : Headers) (host : Option HeaderValue) (c : ForwardingContext) : Headers :=
  let bare := ((h.erase .xForwardedFor).erase .xForwardedHost).erase .xForwardedProto
  let named := insertSome bare .xForwardedFor (forwardedFor? h c)
  let hosted := insertSome named .xForwardedHost (claimed? h c .xForwardedHost <|> host)
  hosted.insert .xForwardedProto ((claimed? h c .xForwardedProto).getD c.scheme.value)

/-- The headers that go on: those of the whole way, then what the next hop is told. -/
def forwardHeaders (r : RequestHead) (t : Target) (c : ForwardingContext) : Headers :=
  let kept := removeHopByHop r.headers
  let trailed :=
    if r.headers.hasToken .te (.ofLatin1 "trailers") then
      kept.insert .te (.ofLatin1 "trailers" (by decide))
    else kept
  let upgraded := match upgradeType? r.headers with
    | some protocol =>
      (trailed.insert .connection (.ofLatin1 "upgrade" (by decide))).insert .upgrade protocol
    | none => trailed
  let hosted := insertSome upgraded .host (HeaderValue.ofBytes? t.authority.bytes)
  setForwarded hosted (inboundHost? r) c

/-- The head that goes to the target, as `rewrite` leaves it; `none` when its URI would be too
long. -/
def outbound? (r : RequestHead) (t : Target) (c : ForwardingContext) : Option RequestHead :=
  (t.locate? r.uri).map fun uri => ⟨r.method, uri, forwardHeaders r t c⟩

/-- Why a head cannot be rewritten. -/
inductive RewriteError where
  /-- Its URI would be too long. -/
  | tooLong
  deriving DecidableEq

/-- Steps that change a head where it stands. When one fails, what was changed before stays. -/
abbrev Rewriting := ExceptT RewriteError (StateM RequestHead)

def changeHeaders (f : Headers → Headers) : Rewriting Unit :=
  modify fun r => { r with headers := f r.headers }

/-- Turns a head into the one that goes to the target, step by step. What the later steps need of
the head as it came in is read first. -/
def rewrite (t : Target) (c : ForwardingContext) : Rewriting Unit := do
  let inbound ← get
  let uri ← match t.locate? inbound.uri with
    | some uri => pure uri
    | none => throw .tooLong
  modify ({ · with uri })
  changeHeaders removeHopByHop
  if inbound.headers.hasToken .te (.ofLatin1 "trailers") then
    changeHeaders (·.insert .te (.ofLatin1 "trailers" (by decide)))
  if let some protocol := upgradeType? inbound.headers then
    changeHeaders (·.insert .connection (.ofLatin1 "upgrade" (by decide)))
    changeHeaders (·.insert .upgrade protocol)
  changeHeaders (insertSome · .host (HeaderValue.ofBytes? t.authority.bytes))
  changeHeaders (setForwarded · (inboundHost? inbound) c)

end Gateway.Proxy
