import Gateway.Bytes

/-! What the gateway counts. -/
namespace Gateway

/-- How the cache treated a request. -/
inductive CacheOutcome where
  | hit
  | miss
  | bypass
  deriving DecidableEq

def CacheOutcome.label : CacheOutcome → String
  | hit => "hit"
  | miss => "miss"
  | bypass => "bypass"

/-- Why no answer came from the application. -/
inductive RelayFailure where
  | badGateway
  | bodyTooLarge
  deriving DecidableEq

def RelayFailure.label : RelayFailure → String
  | badGateway => "bad_gateway"
  | bodyTooLarge => "body_too_large"

/-- A time series. Requests are told apart by method, status and the `X-Cache` of the response. -/
inductive Metric where
  | requests (method : Bytes) (status : Nat) (cache : Bytes)
  | durations (method : Bytes)
  | cacheRequests (outcome : CacheOutcome)
  | cacheStores
  | cacheEvictions
  | cacheEntries
  | cacheBytes
  | relayFailures (kind : RelayFailure)
  | processStarts
  | processExits (clean : Bool)
  deriving DecidableEq

namespace Metric

/-- Name and labels as they are exported. -/
def name : Metric → String
  | requests method status cache =>
    "proxy_requests_total\x7bmethod=" ++ method.toLatin1 ++ ",status=" ++ toString status
      ++ ",cache=" ++ cache.toLatin1 ++ "\x7d"
  | durations method =>
    "proxy_request_duration_seconds\x7bmethod=" ++ method.toLatin1 ++ "\x7d"
  | cacheRequests outcome => "proxy_cache_requests_total\x7boutcome=" ++ outcome.label ++ "\x7d"
  | cacheStores => "proxy_cache_stores_total"
  | cacheEvictions => "proxy_cache_evictions_total"
  | cacheEntries => "proxy_cache_entries"
  | cacheBytes => "proxy_cache_bytes"
  | relayFailures kind => "proxy_upstream_errors_total\x7bkind=" ++ kind.label ++ "\x7d"
  | processStarts => "proxy_upstream_process_starts_total"
  | processExits clean =>
    "proxy_upstream_process_exits_total\x7bresult=" ++ (if clean then "clean" else "failed")
      ++ "\x7d"

end Metric

/-- The recorded values; a series that nothing was recorded for is absent. -/
abbrev Metrics := List (Metric × Nat)

namespace Metrics

def value (m : Metrics) (k : Metric) : Option Nat := m.lookup k

/-- Adds to a counter. -/
def add (m : Metrics) (k : Metric) (n : Nat) : Metrics :=
  match m.value k with
  | none => (k, n) :: m
  | some old => (k, old + n) :: m.filter (·.1 != k)

def count (m : Metrics) (k : Metric) : Metrics := m.add k 1

/-- Sets a gauge. -/
def record (m : Metrics) (k : Metric) (n : Nat) : Metrics := (k, n) :: m.filter (·.1 != k)

end Metrics

end Gateway
