import Gateway.Net.Address
import Gateway.Server.Compression

/-! What is noted of each request. -/
namespace Gateway.Server
open Http

structure AccessRecord where
  path : Bytes
  query : Bytes
  method : Method
  /-- Lengths are absent when they are not known. -/
  requestLength : Option Nat
  requestType : Bytes
  responseLength : Option Nat
  responseType : Bytes
  /-- Where the request came from: what it says itself, else the peer. -/
  remote : Bytes
  userAgent : Bytes
  requestId : Bytes
  status : Status
  cache : Bytes
  millis : Nat

/-- The first value of a name; one that cannot be read counts as none, and none as empty. -/
def readable (h : Headers) (n : HeaderName) : Bytes := (h.text? n).getD []

def remoteAddress (h : Headers) (peer : Option Net.SocketAddr) : Bytes :=
  match readable h .xForwardedFor with
  | [] => (peer.map (·.text)).getD []
  | claimed => claimed

/-- How the cache treated a request, as its response says. -/
def cacheLabel (response : Headers) : Bytes :=
  match readable response .xCache with
  | [] => .ofLatin1 "none"
  | label => label

def AccessRecord.of (r : RequestHead) (body : Body) (peer : Option Net.SocketAddr)
    (response : Coded) (millis : Nat) : AccessRecord where
  path := r.uri.path
  query := r.uri.query.getD []
  method := r.method
  requestLength := body.report.exactSize
  requestType := readable r.headers .contentType
  responseLength := response.exactSize
  responseType := readable response.head.headers .contentType
  remote := remoteAddress r.headers peer
  userAgent := readable r.headers .userAgent
  requestId := readable r.headers .xRequestId
  status := response.head.status
  cache := cacheLabel response.head.headers
  millis := millis

end Gateway.Server
