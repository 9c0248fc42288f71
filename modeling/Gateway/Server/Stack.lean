import Gateway.Server.AccessRecord
import Gateway.Server.BodyLimit
import Gateway.Server.Relay

/-! All that is done to a request from the client to the application and back. From the outside in:
the request's id, the access record, the request's start, the time limit, the limit on its body,
compression, and the way to the application. -/
namespace Gateway.Server
open Http Proxy

/-- A request as a listener hands it over. -/
structure Request where
  head : RequestHead
  body : Body
  peer : Option Net.SocketAddr
  scheme : ListenerScheme
  /-- Whether the connection can change to another protocol. -/
  canUpgrade : Bool

end Server

structure Server where
  http : Config.HttpSettings
  /-- Absent when there is nothing to relay to; every request is then answered with 404. -/
  relay : Option Server.Relay
  /-- What is counted here, without what the cache counts. -/
  counts : Metrics

namespace Server
open Http Proxy

/-- The response to a request and all that came of it. -/
structure Handled where
  response : Coded
  record : Option AccessRecord
  sent : Option Http1.Sent
  delayMillis : Nat

/-- A request keeps the id that its client gave it. -/
def withId (fresh : HeaderValue) (h : Headers) : Headers :=
  if h.contains .xRequestId then h else h.insert .xRequestId fresh

/-- A response without an id gets the request's. -/
def carryId (request response : Headers) : Headers :=
  match request.get? .xRequestId with
  | some id => if response.contains .xRequestId then response else response.insert .xRequestId id
  | none => response

/-- The time of arrival, unless the client gave one. -/
def withStart (now : Cache.Time) (h : Headers) : Headers :=
  if h.contains .xRequestStart then h
  else insertSome h .xRequestStart (HeaderValue.ofBytes? (.ofLatin1 "t=" ++ Bytes.ofNat now))

def ofSettings (s : Config.Settings) (files : Files) : Except TargetError Server := do
  if !s.proxy.enabled then .ok ⟨s.http, none, []⟩
  else
    let proxy ← ReverseProxy.ofSettings s files
    let c := s.proxy.cache
    let cache : Option Cache.ResponseCache :=
      if c.isUsable then some ⟨⟨.empty c.capacity c.maxItemSize, []⟩, [], c.bodyLimit⟩ else none
    .ok ⟨s.http, some ⟨proxy, s.proxy.sendfile, cache⟩, []⟩

/-- Milliseconds that a response may take. -/
def deadline? (s : Server) : Option Nat :=
  if s.http.writeTimeout = 0 then none else some (s.http.writeTimeout * 1000)

def timeoutResponse : Response ResponseHead := ⟨⟨.requestTimeout, ∅⟩, .empty⟩

def notFound : Response ResponseHead := ⟨⟨.notFound, ∅⟩, .empty⟩

/-- Passes on a request whose body may not be longer than a limit. -/
def pass (s : Server) (env : Surroundings) (r : Request) (limit : Option Nat) : Passage × Server :=
  match s.relay with
  | none => (.atOnce notFound, s)
  | some relay =>
    let i : Inbound := ⟨r.head, r.body, limit, r.peer.map (·.ip), r.scheme, r.canUpgrade⟩
    let (passage, relay) := relay.handle env s.deadline? i
    (passage, { s with relay := some relay })

def encode (s : Server) (request : Headers) (r : Response ResponseHead) : Coded :=
  if s.http.gzip then compress request r else .plain r

/-- The response within the limits, and what is counted when it is not the application's. -/
def conclude (s : Server) (request : Headers) : Ending → Coded × Option RelayFailure
  | .timedOut => (.plain timeoutResponse, none)
  | .finished r failure => (s.encode request r, failure)

/-- Adds one request to the counts. -/
def count (m : Metrics) (method : Method) (response : Coded) (failure : Option RelayFailure) :
    Metrics :=
  let m := match failure with
    | some kind => m.count (.relayFailures kind)
    | none => m
  (m.count (.requests method.bytes response.head.status.code
    (cacheLabel response.head.headers))).count (.durations method.bytes)

/-- Handles a request that has an id. -/
def respond (s : Server) (env : Surroundings) (r : Request) :
    Coded × Option RelayFailure × Passage × Server :=
  match admission s.http.maxRequestBody r.head.headers with
  | .refused => (.plain refusal, none, .atOnce refusal, s)
  | .granted limit =>
    let (passage, s) := s.pass env r limit
    let (response, failure) := s.conclude r.head.headers passage.ending
    (response, failure, passage, s)

/-- Replaces the headers of a request. -/
def Request.withHeaders (r : Request) (h : Headers) : Request :=
  { r with head := { r.head with headers := h } }

def handle (s : Server) (env : Surroundings) (r : Request) : Handled × Server :=
  let r := r.withHeaders (withId env.freshId r.head.headers)
  let started := if s.http.addRequestStart then
      r.withHeaders (withStart env.now r.head.headers)
    else r
  let (response, failure, passage, s) := s.respond env started
  let record := AccessRecord.of r.head r.body r.peer response passage.delayMillis
  let headers := carryId r.head.headers response.head.headers
  (⟨{ response with head := { response.head with headers } },
      if s.http.logRequests then some record else none, passage.sent, passage.delayMillis⟩,
    { s with counts := count s.counts r.head.method response failure })

def cache? (s : Server) : Option Cache.ResponseCache := s.relay.bind (·.cache)

/-- All that was counted. -/
def metrics (s : Server) : Metrics :=
  s.counts ++ ((s.cache?.map (·.backend.metrics)).getD [])

end Server

end Gateway
