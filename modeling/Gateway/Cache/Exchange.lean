import Gateway.Cache.Capture
import Gateway.Cache.Freshness
import Gateway.Cache.Metered
import Gateway.Cache.Stored

/-! Requests passing through the cache. A lookup either answers a request or lets it pass to the
origin; a cacheable response on its way back is captured, and stored when its body is complete.
Lookups and stores of different requests may interleave in any order. -/
namespace Gateway.Cache

open Gateway.Http

/-- For a base key, the header names that its responses vary on. -/
abbrev VaryIndex := List (Key × List HeaderName)

namespace VaryIndex

def known? (index : VaryIndex) (base : Key) : Option (List HeaderName) := index.lookup base

/-- Notes the names for a base key; an empty list is not kept. -/
def remember (index : VaryIndex) (base : Key) (names : List HeaderName) : VaryIndex :=
  if index.known? base = some names then index
  else if names.isEmpty then index.filter (·.1 != base)
  else (base, names) :: index.filter (·.1 != base)

end VaryIndex

structure ResponseCache where
  backend : Metered
  index : VaryIndex
  /-- The longest body that is captured. -/
  maxBody : Nat

/-- What a lookup leaves behind: the stored response if it hit, and the variant as it last was. -/
structure Lookup where
  hit : Option Stored
  variant : Variant
  cache : ResponseCache

/-- A response on its way to the client whose body is being captured for the store. -/
structure Exchange where
  variant : Variant
  status : Status
  headers : Headers

namespace ResponseCache

/-- The response stored under a key; a blob that cannot be decoded counts as absent. -/
def fetch (c : ResponseCache) (k : Key) (now : Time) : Option Stored × ResponseCache :=
  let (blob, backend) := c.backend.get k now
  (blob.bind fun b => (Stored.decode b).toOption, { c with backend })

/-- Confirms that a response belongs to the variant, and notes the names that led to it. -/
def confirm (c : ResponseCache) (v : Variant) (base : Key) (names : List HeaderName)
    (r : Stored) : Lookup :=
  if v.accepts r.recorded then ⟨some r, v, { c with index := c.index.remember base names }⟩
  else ⟨none, v, c⟩

/-- Looks under one key. When the response there varies on other names than the variant assumed,
the lookup is done once more under the key with its names. -/
def fetchVariant (c : ResponseCache) (v : Variant) (base k : Key) (now : Time) : Lookup :=
  match c.fetch k now with
  | (none, c) => ⟨none, v, c⟩
  | (some found, c) =>
    let names := varyNames found.headers
    if names = v.names then c.confirm v base names found
    else
      let v := v.withNames names
      match c.fetch v.key now with
      | (none, c) => ⟨none, v, c⟩
      | (some corrected, c) => c.confirm v base names corrected

/-- Looks under the key with the names known for the base key, then under the base key itself. -/
def lookup (c : ResponseCache) (v : Variant) (now : Time) : Lookup :=
  let base := v.key
  let v := match c.index.known? base with
    | some names => v.withNames names
    | none => v
  let first := c.fetchVariant v base v.key now
  if first.hit.isNone && v.key != base then
    first.cache.fetchVariant (first.variant.withNames []) base base now
  else first

/-- Stores a captured response if it may be stored at the time its body is complete. -/
def store (c : ResponseCache) (e : Exchange) (body : Bytes) (now : Time) (draws : Draws) :
    ResponseCache :=
  match lifetime? e.status e.headers with
  | none => c
  | some seconds =>
    let base := (e.variant.withNames []).key
    let v := e.variant.learn e.headers
    let blob := Stored.encode ⟨e.status, e.headers, body, v.recorded⟩
    let backend := c.backend.set v.key blob (now + 1000 * seconds) now draws
    { c with
      index := c.index.remember base v.names
      backend := { backend with metrics := backend.metrics.count .cacheStores } }

end ResponseCache

/-- Only GET and HEAD without a range and without a protocol upgrade are served by the cache. -/
def isCacheable (r : RequestHead) : Bool :=
  (r.method = .get || r.method = .head)
    && !r.headers.contains .range
    && !r.headers.hasToken .connection (.ofLatin1 "upgrade")
    && !((r.headers.text? .upgrade).any fun t =>
      Bytes.eqIgnoreCase (Bytes.trim t) (.ofLatin1 "websocket"))

def outcomeMark : CacheOutcome → HeaderValue
  | .hit => Stored.hitMark
  | .miss => ⟨.ofLatin1 "miss", by decide⟩
  | .bypass => ⟨.ofLatin1 "bypass", by decide⟩

/-- The response head as the client sees it. -/
def marked (head : ResponseHead) (outcome : CacheOutcome) : ResponseHead :=
  { head with headers := head.headers.insert .xCache (outcomeMark outcome) }

/-- What the cache does with a request: it answers, or lets it pass. -/
inductive Verdict where
  | answered (head : ResponseHead) (body : Bytes)
  | passed (variant : Variant) (cacheable : Bool)

/-- A response that has come back through the cache. -/
structure Returned where
  head : ResponseHead
  body : Body
  /-- Present when the body is being captured for the store. -/
  capture : Option (Capture × Exchange)

/-- What stands behind the cache: it answers a request or fails, and may have a state of its own. -/
abbrev Service (σ ε : Type) := RequestHead → Body → σ → Except ε (Response ResponseHead) × σ

namespace ResponseCache

def count (c : ResponseCache) (outcome : CacheOutcome) : ResponseCache :=
  { c with backend := { c.backend with
      metrics := c.backend.metrics.count (.cacheRequests outcome) } }

/-- Answers a request from the store, or lets it pass with the variant the lookup left. -/
def receive (c : ResponseCache) (r : RequestHead) (now : Time) : Verdict × ResponseCache :=
  let found := c.lookup (.ofRequest r) now
  match found.hit with
  | some stored =>
    let (head, body) := stored.replay r.headers
    (.answered head body, found.cache.count .hit)
  | none => (.passed found.variant (isCacheable r), found.cache)

/-- Takes a response of the origin back to the client. -/
def relay (c : ResponseCache) (v : Variant) (cacheable : Bool) (head : ResponseHead) (body : Body) :
    Returned × ResponseCache :=
  if !cacheable then (⟨marked head .bypass, body, none⟩, c.count .bypass)
  else
    let capture := if mayStore head.status head.headers then
        some (Capture.start body c.maxBody, ⟨v, head.status, head.headers⟩)
      else none
    (⟨marked head .miss, body, capture⟩, c.count .miss)

/-- Answers a request, with the service behind the cache when the store has no answer. -/
def serve {σ ε : Type} (c : ResponseCache) (inner : Service σ ε) (r : RequestHead) (body : Body)
    (now : Time) (s : σ) : Except ε Returned × σ × ResponseCache :=
  match c.receive r now with
  | (.answered head content, c) => (.ok ⟨head, .whole content, none⟩, s, c)
  | (.passed v cacheable, c) =>
    match inner r body s with
    | (.error e, s) => (.error e, s, c)
    | (.ok app, s) =>
      let (returned, c) := c.relay v cacheable app.head app.body
      (.ok returned, s, c)

/-- Stores what a capture has handed over, if it has. -/
def settle (c : ResponseCache) (capture : Capture) (e : Exchange) (now : Time) (draws : Draws) :
    ResponseCache :=
  match capture.captured with
  | some body => c.store e body now draws
  | none => c

end ResponseCache

end Gateway.Cache
