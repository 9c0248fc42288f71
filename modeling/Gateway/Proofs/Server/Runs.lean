import Gateway.Proofs.Cache.Holdings
import Gateway.Proofs.Cache.Journal
import Gateway.Proofs.Cache.Passage
import Gateway.Server.Stack

/-! Requests one after another. A request that goes through the cache takes one of three courses, and
whatever the cache holds was made of an answer that the proxy had for one of the requests. -/
namespace Gateway.Server
open Http Proxy Cache

/-- A request, what the server meets while it handles it, and the deadline. -/
structure Arrival where
  surroundings : Surroundings
  deadline : Option Nat
  inbound : Inbound

namespace Relay
variable {r : Relay} {cache : ResponseCache} {env : Surroundings} {deadline : Option Nat}
  {i : Inbound} {described : Bytes → Prop}

/-- A request as it goes to the cache and to the proxy. -/
def announce (r : Relay) (i : Inbound) : Inbound :=
  { i with head := { i.head with headers := announceSendfile r.sendfile i.head.headers } }

def answer (r : Relay) (env : Surroundings) (i : Inbound) : Forwarded :=
  r.proxy.forward env.origin i

def step (r : Relay) (a : Arrival) : Relay := (r.handle a.surroundings a.deadline a.inbound).2

def run (r : Relay) (arrivals : List Arrival) : Relay := arrivals.foldl step r

/-- The proxy's answer to an announced request as it comes back through the cache. -/
def takeBack (r : Relay) (cache : ResponseCache) (env : Surroundings) (i : Inbound) :
    Returned × ResponseCache :=
  let found := cache.lookup (.ofRequest i.head) env.now
  let app := (r.answer env i).response
  found.cache.relay found.variant (isCacheable i.head) app.head app.body

def delivered (r : Relay) (files : Files) (request : RequestHead) (stored : Stored) :
    Response ResponseHead :=
  r.deliver files request
    ⟨(stored.replay request.headers).1, .whole (stored.replay request.headers).2⟩

/-- The courses that an announced request may take. Each fixes what becomes of the request and what
the cache is left with. -/
inductive Course (r : Relay) (cache : ResponseCache) (env : Surroundings) (deadline : Option Nat)
    (i : Inbound) : Passage × ResponseCache → Prop
  | replayed (stored : Stored)
      (hhit : (cache.lookup (.ofRequest i.head) env.now).hit = some stored) :
    Course r cache env deadline i
      (.atOnce (r.delivered env.files i.head stored),
      (cache.lookup (.ofRequest i.head) env.now).cache.count .hit)
  | late (hmiss : (cache.lookup (.ofRequest i.head) env.now).hit = none)
      (hlate : isLate deadline (r.answer env i).delayMillis = true) :
    Course r cache env deadline i
      (⟨.timedOut, (r.answer env i).sent, (r.answer env i).delayMillis⟩,
      (cache.lookup (.ofRequest i.head) env.now).cache)
  | relayed (hmiss : (cache.lookup (.ofRequest i.head) env.now).hit = none)
      (htimely : isLate deadline (r.answer env i).delayMillis = false) :
    Course r cache env deadline i
      (⟨.finished (r.deliver env.files i.head ⟨(r.takeBack cache env i).1.head,
          (r.takeBack cache env i).1.body⟩) (r.answer env i).failure,
        (r.answer env i).sent, (r.answer env i).delayMillis⟩,
      r.collect (r.takeBack cache env i).2 (r.takeBack cache env i).1
        (env.now + (r.answer env i).delayMillis) env.draws)

theorem course_handleCached (r : Relay) (cache : ResponseCache) (env : Surroundings)
    (deadline : Option Nat) (i : Inbound) :
    Course r cache env deadline i (r.handleCached cache env deadline i) := by
  have hanswer : r.application env deadline i i.head i.body none =
      (if isLate deadline (r.answer env i).delayMillis then
        (.error ⟨.timedOut, (r.answer env i).sent, (r.answer env i).delayMillis⟩,
          some (r.answer env i))
      else (.ok (r.answer env i).response, some (r.answer env i))) := rfl
  unfold handleCached
  cases hfound : (cache.lookup (.ofRequest i.head) env.now).hit with
  | some stored =>
    rw [ResponseCache.serve_of_hit hfound]
    exact .replayed stored hfound
  | none =>
    by_cases hlate : isLate deadline (r.answer env i).delayMillis = true
    · rw [if_pos hlate] at hanswer
      rw [ResponseCache.serve_of_error hfound (congrArg Prod.fst hanswer), hanswer]
      exact .late hfound hlate
    · rw [if_neg hlate] at hanswer
      rw [ResponseCache.serve_of_ok hfound (congrArg Prod.fst hanswer), hanswer]
      exact .relayed hfound (Bool.not_eq_true _ ▸ hlate)

theorem handle_of_cache (hcache : r.cache = some cache) (env : Surroundings)
    (deadline : Option Nat) (i : Inbound) : r.handle env deadline i =
      ((r.handleCached cache env deadline (r.announce i)).1,
        { r with cache := some (r.handleCached cache env deadline (r.announce i)).2 }) := by
  unfold handle
  rw [hcache]
  rfl

/-- On none of its courses is anything kept for a request but the proxy's answer to it. -/
theorem Course.keeps {passage : Passage} {after : ResponseCache}
    (h : Course r cache env deadline i (passage, after)) (hkept : cache.backend.Keeps described)
    (hmade : ∀ blob, Stored.IsBlobOf blob (r.answer env i).response.head → described blob) :
    after.backend.Keeps described := by
  have hread := ResponseCache.keeps_lookup hkept (v := .ofRequest i.head) rfl env.now
  -- Only a relayed answer can be captured; the other courses leave what the lookup left.
  cases h with
  | replayed stored hhit => exact hread
  | late hmiss hlate => exact hread
  | relayed hmiss htimely =>
    have hrelayed : (r.takeBack cache env i).2.backend.Keeps described := by
      unfold takeBack Metered.Keeps
      dsimp only
      rw [(ResponseCache.sameContent_relay _ _ _ _ _).store]
      exact hread
    unfold collect
    cases hcaptured : (r.takeBack cache env i).1.capture with
    | none => exact hrelayed
    | some p =>
      unfold takeBack at hcaptured
      dsimp only at hcaptured
      rw [ResponseCache.capture_relay] at hcaptured
      split_ifs at hcaptured
      obtain rfl := Option.some.inj hcaptured
      exact ResponseCache.keeps_settle hrelayed hmade _ _ _

theorem step_of_cache (hcache : r.cache = some cache) (a : Arrival) :
    ∃ after, r.step a = { r with cache := some after } ∧
      Course r cache a.surroundings a.deadline (r.announce a.inbound)
        ((r.handle a.surroundings a.deadline a.inbound).1, after) := by
  unfold step
  rw [handle_of_cache hcache]
  exact ⟨_, rfl, course_handleCached r cache a.surroundings a.deadline (r.announce a.inbound)⟩

def answerTo (r : Relay) (a : Arrival) : Forwarded := r.answer a.surroundings (r.announce a.inbound)

/-- A run changes nothing but the cache. If what it held is as described, and what is made of the
proxy's answers is as well, then so is what it holds afterwards. -/
theorem run_of_cache (hcache : r.cache = some cache) (hkept : cache.backend.Keeps described)
    {arrivals : List Arrival} (hmade : ∀ a ∈ arrivals, ∀ blob,
      Stored.IsBlobOf blob (r.answerTo a).response.head → described blob) :
    ∃ after, r.run arrivals = { r with cache := some after } ∧
      after.backend.Keeps described := by
  -- The description stays fixed while the cache changes from request to request.
  induction arrivals generalizing r cache with
  | nil =>
    refine ⟨cache, ?_, hkept⟩
    rw [← hcache]
    rfl
  | cons a rest ih =>
    obtain ⟨next, hstep, hcourse⟩ := step_of_cache hcache a
    have hnext := hcourse.keeps hkept (hmade a List.mem_cons_self)
    obtain ⟨after, hrun, hafter⟩ := ih (r := r.step a) (congrArg Relay.cache hstep) hnext
      (by
        rw [hstep]
        exact fun b hb => hmade b (List.mem_cons_of_mem a hb))
    refine ⟨after, ?_, hafter⟩
    change (r.step a).run rest = _
    rw [hrun, hstep]

/-- A cache that was empty holds nothing but answers that the proxy had in the run. -/
theorem run_of_fresh (proxy : ReverseProxy) (sendfile : Bool) (capacity maxItemSize maxBody : Nat)
    (metrics : Metrics) (arrivals : List Arrival) :
    let start : Relay := ⟨proxy, sendfile, some ⟨.fresh capacity maxItemSize metrics, [], maxBody⟩⟩
    ∃ cache, start.run arrivals = { start with cache := some cache } ∧
      cache.backend.Keeps fun blob => ∃ a ∈ arrivals,
        Stored.IsBlobOf blob (start.answerTo a).response.head := by
  intro start
  apply run_of_cache rfl (Metered.keeps_fresh _ capacity maxItemSize metrics)
  exact fun a ha blob hblob => ⟨a, ha, hblob⟩

end Relay

end Gateway.Server
