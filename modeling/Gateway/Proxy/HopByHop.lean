import Gateway.Http.Headers

/-! Headers that belong to one connection and are never passed on. -/
namespace Gateway.Proxy
open Http

/-- The headers of a single connection, whatever `Connection` says. -/
def hopByHopNames : List HeaderName :=
  [.connection, .proxyConnection, .keepAlive, .proxyAuthenticate, .proxyAuthorization, .te,
    .trailer, .transferEncoding]

/-- The header names that `Connection` lists; elements that are no names are skipped. -/
def connectionNames (h : Headers) : List HeaderName :=
  (h.elements .connection).filterMap HeaderName.ofBytes?

/-- Whether a header of a message stays with its connection. -/
def isHopByHop (h : Headers) (n : HeaderName) : Bool :=
  hopByHopNames.contains n || n == .upgrade || (connectionNames h).contains n

def removeHopByHop (h : Headers) : Headers := h.filter (!isHopByHop h ·)

/-- The protocol that a message asks to change to. -/
def upgradeType? (h : Headers) : Option HeaderValue :=
  if h.hasToken .connection (.ofLatin1 "upgrade") then h.get? .upgrade else none

end Gateway.Proxy
