import Gateway.Cache.Exchange
import Gateway.Proofs.Cache.Calls

/-! Traffic through a cache: requests, responses of the origin, polls of the bodies that are being
captured, sweeps and the clock, in any order. -/
namespace Gateway.Cache

open Gateway.Http

structure Waiting where
  request : RequestHead
  variant : Variant
  cacheable : Bool

/-- A response whose body is being captured, with the request it answers. -/
structure Capturing where
  request : RequestHead
  capture : Capture
  exchange : Exchange

/-- A complete response as it was handed to the store. -/
structure Deposit where
  request : RequestHead
  status : Status
  headers : Headers
  body : Bytes
  time : Time
  deriving DecidableEq

namespace Deposit

def variant (d : Deposit) : Variant := (Variant.ofRequest d.request).learn d.headers

def blob (d : Deposit) : Bytes := Stored.encode ⟨d.status, d.headers, d.body, d.variant.recorded⟩

def expires? (d : Deposit) : Option Time :=
  (lifetime? d.status d.headers).map fun seconds => d.time + 1000 * seconds

end Deposit

/-- A cache in use. The deposits tell what has been handed to the store so far. -/
structure Traffic where
  cache : ResponseCache
  now : Time
  waiting : List Waiting
  capturing : List Capturing
  deposits : List Deposit

/-- What may happen next; a store brings the draws of its evictions. -/
inductive Event where
  | receive (r : RequestHead)
  | respond (i : Nat) (head : ResponseHead) (body : Body) (draws : Draws)
  | fail (i : Nat)
  | poll (i : Nat) (draws : Draws)
  | purge
  | advance (ms : Nat)

namespace Traffic

def fresh (capacity maxItemSize maxBody : Nat) (metrics : Metrics) (now : Time) : Traffic where
  cache := ⟨.fresh capacity maxItemSize metrics, [], maxBody⟩
  now := now
  waiting := []
  capturing := []
  deposits := []

/-- Takes up a capture after a poll, and stores the body if that was its end. -/
def settle (w : Traffic) (c : Capturing) (draws : Draws) : Traffic :=
  match c.capture.captured with
  | none => w
  | some body =>
    { w with
      cache := w.cache.settle c.capture c.exchange w.now draws
      deposits := ⟨c.request, c.exchange.status, c.exchange.headers, body, w.now⟩ :: w.deposits }

def receive (w : Traffic) (r : RequestHead) : Traffic :=
  match w.cache.receive r w.now with
  | (.answered _ _, cache) => { w with cache }
  | (.passed variant cacheable, cache) =>
    { w with cache, waiting := w.waiting ++ [⟨r, variant, cacheable⟩] }

def respond (w : Traffic) (x : Waiting) (head : ResponseHead) (body : Body) (draws : Draws) :
    Traffic :=
  match w.cache.relay x.variant x.cacheable head body with
  | (⟨_, _, none⟩, cache) => { w with cache }
  | (⟨_, _, some (capture, exchange)⟩, cache) =>
    let c : Capturing := ⟨x.request, capture, exchange⟩
    { w with cache, capturing := w.capturing ++ [c] }.settle c draws

/-- The client reads on in a body that is being captured; what has been handed over stays so. -/
def poll (w : Traffic) (i : Nat) (c : Capturing) (draws : Draws) : Traffic :=
  let polled : Capturing := { c with capture := c.capture.poll.2 }
  let w := { w with capturing := w.capturing.set i polled }
  if c.capture.captured.isSome then w else w.settle polled draws

def step (w : Traffic) : Event → Traffic
  | .receive r => w.receive r
  | .respond i head body draws =>
    match w.waiting[i]? with
    | none => w
    | some x => { w with waiting := w.waiting.eraseIdx i }.respond x head body draws
  | .fail i => { w with waiting := w.waiting.eraseIdx i }
  | .poll i draws =>
    match w.capturing[i]? with
    | none => w
    | some c => w.poll i c draws
  | .purge => { w with cache := { w.cache with backend := (w.cache.backend.purge w.now).2 } }
  | .advance ms => { w with now := w.now + ms }

def run (w : Traffic) (events : List Event) : Traffic := events.foldl step w

end Traffic

end Gateway.Cache
