import Gateway.Proofs.Proxy.FileAnswers
import Gateway.Proofs.Server.Revalidation

/-! The id on a response. Nothing behind the layer that carries the ids touches an id that is on a
response already, whether the application put it there or a stored response brought it along. -/
namespace Gateway.Proxy
open Http

theorem ids_sendfile (enabled : Bool) (files : Files) (isHead : Bool) (request : Headers)
    (app : Response ResponseHead) :
    (sendfile enabled files isHead request app).head.headers.values .xRequestId =
      app.head.headers.values .xRequestId := by
  unfold sendfile substitute
  split
  · rename_i path _
    have hsilent : ((fileServer files).answer path.bytes isHead request).head.headers.contains
        .xRequestId = false := by
      unfold Headers.contains
      show (!((serveFile files path.bytes isHead request).head.headers.values _).isEmpty) = false
      rw [values_serveFile_of_not_mem files path.bytes isHead request (by decide)]
      rfl
    dsimp only
    rw [values_mergeHeaders _ _ _ (by decide), hsilent, values_withSize, if_neg (by decide),
      if_neg (by decide)]
    rfl
  · rfl

end Gateway.Proxy

namespace Gateway
open Http Proxy Cache

namespace Server

theorem ids_compress (request : Headers) (r : Response ResponseHead) :
    (compress request r).head.headers.values .xRequestId =
      r.head.headers.values .xRequestId := by
  have hvary : (varyOnCoding r.head.headers).values .xRequestId =
      r.head.headers.values .xRequestId := by
    unfold varyOnCoding
    split
    · rfl
    · rw [Headers.values_append, if_neg (by decide)]
  unfold compress
  split
  · rfl
  · dsimp only
    split
    · dsimp only
      rw [Headers.values_insert, if_neg (by decide), Headers.values_erase, if_neg (by decide),
        Headers.values_erase, if_neg (by decide), hvary]
    · exact hvary

theorem Relay.ids_deliver (r : Relay) (files : Files) (request : RequestHead)
    (app : Response ResponseHead) :
    (r.deliver files request app).head.headers.values .xRequestId =
      app.head.headers.values .xRequestId := by
  unfold deliver
  rw [head_withoutTunnelBody, ids_sendfile]

theorem ids_encode (s : Server) (request : Headers) (r : Response ResponseHead) :
    (s.encode request r).head.headers.values .xRequestId =
      r.head.headers.values .xRequestId := by
  unfold encode
  split
  · exact ids_compress request r
  · rfl

def requestId (env : Surroundings) (r : Request) : HeaderValue :=
  (r.head.headers.get? .xRequestId).getD env.freshId

theorem get?_withId (fresh : HeaderValue) (h : Headers) :
    (withId fresh h).get? .xRequestId = some ((h.get? .xRequestId).getD fresh) := by
  unfold withId Headers.contains Headers.get?
  cases hvalues : h.values .xRequestId with
  | nil => simp
  | cons v vs => simp [hvalues]

/-- A response carries the request's id when it had none or this very one. -/
theorem carryId_iff {request : Headers} {id : HeaderValue}
    (hid : request.get? .xRequestId = some id) (response : Headers) :
    (carryId request response).values .xRequestId = [id] ↔
      response.values .xRequestId = [] ∨ response.values .xRequestId = [id] := by
  unfold carryId Headers.contains
  rw [hid]
  dsimp only
  cases hvalues : response.values .xRequestId with
  | nil => simp
  | cons v vs => simp [hvalues]

def identified (env : Surroundings) (r : Request) : Request :=
  r.withHeaders (withId env.freshId r.head.headers)

/-- A request as the limits see it. -/
def started (http : Config.HttpSettings) (env : Surroundings) (r : Request) : Request :=
  let r := identified env r
  if http.addRequestStart then r.withHeaders (withStart env.now r.head.headers) else r

/-- A request as it arrives at the relay; `none` when its body is refused. -/
def arrival? (http : Config.HttpSettings) (env : Surroundings) (r : Request) : Option Arrival :=
  let r := started http env r
  match admission http.maxRequestBody r.head.headers with
  | .refused => none
  | .granted limit => some ⟨env, deadline? ⟨http, none, []⟩,
      ⟨r.head, r.body, limit, r.peer.map (·.ip), r.scheme, r.canUpgrade⟩⟩

def run (s : Server) (history : List (Surroundings × Request)) : Server :=
  history.foldl (fun s e => (s.handle e.1 e.2).2) s

def arrivals (http : Config.HttpSettings) (history : List (Surroundings × Request)) :
    List Arrival :=
  history.filterMap fun e => arrival? http e.1 e.2

variable {s : Server} {relay : Relay} {env : Surroundings} {r : Request}

theorem respond_of_refused (h : arrival? s.http env r = none) :
    s.respond env (started s.http env r) = (.plain refusal, none, .atOnce refusal, s) := by
  unfold arrival? at h
  unfold respond
  dsimp only at h
  cases hadmission : admission s.http.maxRequestBody (started s.http env r).head.headers with
  | refused => rfl
  | granted limit => simp [hadmission] at h

theorem respond_of_arrival {a : Arrival} (hrelay : s.relay = some relay)
    (h : arrival? s.http env r = some a) :
    let passage := (relay.handle a.surroundings a.deadline a.inbound).1
    ∃ request, s.respond env (started s.http env r) =
      ((s.conclude request passage.ending).1, (s.conclude request passage.ending).2, passage,
        { s with relay := some (relay.step a) }) := by
  unfold arrival? at h
  unfold respond pass
  dsimp only at h
  cases hadmission : admission s.http.maxRequestBody (started s.http env r).head.headers with
  | refused => simp [hadmission] at h
  | granted limit =>
    rw [hadmission] at h
    obtain rfl := Option.some.inj h
    rw [hrelay]
    exact ⟨_, rfl⟩

theorem handle_snd (s : Server) (env : Surroundings) (r : Request) :
    ∃ counts, (s.handle env r).2 =
      { (s.respond env (started s.http env r)).2.2.2 with counts } := ⟨_, rfl⟩

theorem ids_handle_iff (s : Server) (env : Surroundings) (r : Request) :
    (s.handle env r).1.response.head.headers.values .xRequestId = [requestId env r] ↔
      (s.respond env (started s.http env r)).1.head.headers.values .xRequestId = [] ∨
      (s.respond env (started s.http env r)).1.head.headers.values .xRequestId =
        [requestId env r] :=
  carryId_iff (get?_withId env.freshId r.head.headers) _

theorem handle_of_refused (h : arrival? s.http env r = none) :
    ∃ counts, (s.handle env r).2 = { s with counts } := by
  obtain ⟨counts, hnext⟩ := s.handle_snd env r
  rw [respond_of_refused h] at hnext
  exact ⟨counts, hnext⟩

theorem handle_of_arrival {a : Arrival} (hrelay : s.relay = some relay)
    (h : arrival? s.http env r = some a) :
    ∃ counts, (s.handle env r).2 = ⟨s.http, some (relay.step a), counts⟩ := by
  obtain ⟨counts, hnext⟩ := s.handle_snd env r
  obtain ⟨request, hrespond⟩ := respond_of_arrival hrelay h
  rw [hrespond] at hnext
  exact ⟨counts, hnext⟩

/-- A run leaves the relay that its requests leave as they arrive there. -/
theorem run_of_relay (hrelay : s.relay = some relay) (history : List (Surroundings × Request)) :
    ∃ counts, s.run history = ⟨s.http, some (relay.run (arrivals s.http history)), counts⟩ := by
  induction history generalizing s relay with
  | nil =>
    refine ⟨s.counts, ?_⟩
    change s = ⟨s.http, some relay, s.counts⟩
    rw [← hrelay]
  | cons e rest ih =>
    change ∃ counts, (s.handle e.1 e.2).2.run rest = _
    cases harrival : arrival? s.http e.1 e.2 with
    | none =>
      have hskip : arrivals s.http (e :: rest) = arrivals s.http rest :=
        List.filterMap_cons_none harrival
      obtain ⟨counts, hnext⟩ := handle_of_refused harrival
      rw [hskip, hnext]
      exact ih (s := { s with counts }) hrelay
    | some a =>
      have hnew : arrivals s.http (e :: rest) = a :: arrivals s.http rest :=
        List.filterMap_cons_some harrival
      obtain ⟨counts, hnext⟩ := handle_of_arrival hrelay harrival
      rw [hnew, hnext]
      exact ih (s := ⟨s.http, some (relay.step a), counts⟩) rfl

theorem surroundings_of_arrival {http : Config.HttpSettings} {a : Arrival}
    (h : arrival? http env r = some a) : a.surroundings = env := by
  unfold arrival? at h
  dsimp only at h
  split at h
  · cases h
  · obtain rfl := Option.some.inj h
    rfl

def Ending.ids : Ending → List HeaderValue
  | .timedOut => []
  | .finished response _ => response.head.headers.values .xRequestId

theorem ids_conclude (s : Server) (request : Headers) (ending : Ending) :
    (s.conclude request ending).1.head.headers.values .xRequestId = ending.ids := by
  cases ending with
  | timedOut => rfl
  | finished response failure => exact ids_encode s request response

/-- The ids of what the response to an announced request is made of: a stored response, else the
proxy's answer unless it comes too late. -/
def Relay.sourceIds (r : Relay) (cache : ResponseCache) (env : Surroundings)
    (deadline : Option Nat) (i : Inbound) : List HeaderValue :=
  match (cache.lookup (.ofRequest i.head) env.now).hit with
  | some stored => stored.headers.values .xRequestId
  | none =>
    if isLate deadline (r.answer env i).delayMillis then []
    else (r.answer env i).response.head.headers.values .xRequestId

theorem Relay.Course.ids {r : Relay} {cache : ResponseCache} {env : Surroundings}
    {deadline : Option Nat} {i : Inbound} {result : Passage × ResponseCache}
    (h : Course r cache env deadline i result) :
    result.1.ending.ids = r.sourceIds cache env deadline i := by
  unfold sourceIds
  cases h with
  | replayed stored hhit =>
    rw [hhit]
    refine (r.ids_deliver env.files i.head _).trans ?_
    rw [ResponseCache.values_replay, if_neg (by decide)]
  | late hmiss hlate =>
    rw [hmiss]
    dsimp only
    rw [hlate]
    rfl
  | relayed hmiss htimely =>
    rw [hmiss]
    dsimp only
    rw [htimely]
    refine (r.ids_deliver env.files i.head _).trans ?_
    refine ((ResponseCache.passesOn_relay _ _ _ _).values .xRequestId).trans ?_
    rw [if_neg (by decide)]
    rfl

/-- The layers outside the cache leave the ids alone, but for the one that adds the request's. -/
theorem ids_handle_of_arrival {cache : ResponseCache} {a : Arrival}
    (hrelay : s.relay = some relay) (hcache : relay.cache = some cache)
    (harrival : arrival? s.http env r = some a) :
    let source := relay.sourceIds cache env a.deadline (relay.announce a.inbound)
    (s.handle env r).1.response.head.headers.values .xRequestId = [requestId env r] ↔
      source = [] ∨ source = [requestId env r] := by
  have hcourse := (Relay.course_handleCached relay cache a.surroundings a.deadline
    (relay.announce a.inbound)).ids
  obtain ⟨request, hrespond⟩ := respond_of_arrival hrelay harrival
  rw [ids_handle_iff, hrespond, ids_conclude, Relay.handle_of_cache hcache]
  dsimp only
  rw [hcourse, surroundings_of_arrival harrival]

/-- A response carries the id of the very request that it answers exactly when what it is made of,
the application's answer or a stored one, has no id or this one; the gateway's own answers have none.
A stored response is the application's answer to an earlier request. -/
theorem carries_own_id_iff (http : Config.HttpSettings) (proxy : ReverseProxy) (sendfile : Bool)
    (capacity maxItemSize maxBody : Nat) (metrics counts : Metrics)
    (history : List (Surroundings × Request)) (env : Surroundings) (r : Request) :
    let start : Server := ⟨http,
      some ⟨proxy, sendfile, some ⟨.fresh capacity maxItemSize metrics, [], maxBody⟩⟩, counts⟩
    let s := start.run history
    let id := requestId env r
    let ids := (s.handle env r).1.response.head.headers.values .xRequestId
    match arrival? http env r with
    | none => ids = [id]
    | some a => ∃ relay cache, s.relay = some relay ∧ relay.cache = some cache ∧
      match (cache.lookup (.ofRequest (relay.announce a.inbound).head) env.now).hit with
      | some stored =>
        (∃ e ∈ history, ∃ b ∈ arrival? http e.1 e.2,
          stored.ComesFrom (relay.answerTo b).response.head) ∧
        (ids = [id] ↔ stored.headers.values .xRequestId = [] ∨
          stored.headers.values .xRequestId = [id])
      | none =>
        let answer := relay.answerTo a
        if Relay.isLate a.deadline answer.delayMillis then ids = [id]
        else (ids = [id] ↔ answer.response.head.headers.values .xRequestId = [] ∨
          answer.response.head.headers.values .xRequestId = [id]) := by
  intro start s id ids
  obtain ⟨counted, hrun⟩ := run_of_relay (s := start) rfl history
  have hhttp : s.http = http := congrArg Server.http hrun
  cases harrival : arrival? http env r with
  | none =>
    have hids := s.ids_handle_iff env r
    rw [respond_of_refused (hhttp ▸ harrival)] at hids
    exact hids.mpr (.inl rfl)
  | some a =>
    obtain ⟨cache, hcached, hkept⟩ := Relay.run_of_fresh proxy sendfile capacity maxItemSize maxBody
      metrics (arrivals http history)
    rw [hcached] at hrun
    have hrelay : s.relay = some ⟨proxy, sendfile, some cache⟩ := congrArg Server.relay hrun
    have hids := ids_handle_of_arrival hrelay rfl (hhttp ▸ harrival)
    refine ⟨_, cache, hrelay, rfl, ?_⟩
    unfold Relay.sourceIds at hids
    unfold Relay.answerTo
    rw [surroundings_of_arrival harrival]
    cases hfound : (cache.lookup (.ofRequest ((⟨proxy, sendfile, some cache⟩ : Relay).announce
        a.inbound).head) env.now).hit with
    | some stored =>
      rw [hfound] at hids
      refine ⟨?_, hids⟩
      obtain ⟨blob, ⟨b, hb, hblob⟩, hdecode⟩ :=
        ResponseCache.exists_blob_of_hit hkept rfl hfound
      obtain ⟨e, he, harrived⟩ := List.mem_filterMap.mp hb
      exact ⟨e, he, b, harrived, hblob.comesFrom hdecode⟩
    | none =>
      rw [hfound] at hids
      dsimp only at hids ⊢
      split
      · rename_i hlate
        rw [if_pos hlate] at hids
        exact hids.mpr (.inl rfl)
      · rename_i htimely
        rw [if_neg htimely] at hids
        exact hids

/-- A request to an application whose answers may be stored and have these further lines. -/
def idVisit (lines : String) (head : RequestHead) : Surroundings × Request :=
  let reply := Bytes.ofLatin1 ("HTTP/1.1 200 OK\r\nCache-Control: public, max-age=60\r\n" ++ lines ++
    "Content-Length: 0\r\n\r\n")
  (⟨0, ⟨[], []⟩, some fun _ => ⟨reply, 0⟩, .ofLatin1 "fresh" (by decide), fun _ _ => 0⟩,
    ⟨head, .empty, none, .http, false⟩)

/-- The application does not answer with an id: a replay carries that of the request it answers. -/
theorem carries_own_id_of_silent_application :
    let start : Server :=
      ⟨{}, some ⟨Relay.loopback, true, some ⟨.fresh 1000 1000 [], [], 100⟩⟩, []⟩
    let root : Uri := ⟨none, none, [47], none, by decide, nofun⟩
    let first := idVisit "" ⟨.get, root, .ofFields [(.xRequestId, .ofLatin1 "first" (by decide))]⟩
    let second := idVisit "" ⟨.get, root, .ofFields [(.xRequestId, .ofLatin1 "second" (by decide))]⟩
    let s := start.run [first]
    (s.handle second.1 second.2).1.response.head.headers.values .xCache = [Stored.hitMark] ∧
      (s.handle second.1 second.2).1.response.head.headers.values .xRequestId =
        [.ofLatin1 "second" (by decide)] := by
  intro start root first second s
  have hfound : ((arrival? {} second.1 second.2).bind fun a => s.relay.bind fun relay =>
      relay.cache.bind fun c =>
        (c.lookup (.ofRequest (relay.announce a.inbound).head) second.1.now).hit).map
        (·.headers.values .xRequestId) = some [] := by
    decide +kernel
  have hreplayed : (s.handle second.1 second.2).1.response.head.headers.values .xCache =
      [Stored.hitMark] := by
    decide +kernel
  have hid : requestId second.1 second.2 = .ofLatin1 "second" (by decide) := by decide +kernel
  have hids := carries_own_id_iff {} Relay.loopback true 1000 1000 100 [] []
    [first] second.1 second.2
  extract_lets at hids
  obtain ⟨stored, hfound, hnone⟩ := Option.map_eq_some_iff.mp hfound
  obtain ⟨a, harrival, hfound⟩ := Option.bind_eq_some_iff.mp hfound
  rw [harrival] at hids
  obtain ⟨relay, cache, hrelay, hcache, hids⟩ := hids
  rw [hrelay, Option.bind_some, hcache, Option.bind_some] at hfound
  rw [hfound] at hids
  rw [← hid]
  exact ⟨hreplayed, hids.2.mpr (.inl hnone)⟩

/-- The application answers with the id of the first request, and the replay for the second request
carries it as well. -/
theorem not_carries_own_id_of_replay :
    let start : Server :=
      ⟨{}, some ⟨Relay.loopback, true, some ⟨.fresh 1000 1000 [], [], 100⟩⟩, []⟩
    let root : Uri := ⟨none, none, [47], none, by decide, nofun⟩
    let first := idVisit "X-Request-Id: first\r\n"
      ⟨.get, root, .ofFields [(.xRequestId, .ofLatin1 "first" (by decide))]⟩
    let second := idVisit "X-Request-Id: first\r\n"
      ⟨.get, root, .ofFields [(.xRequestId, .ofLatin1 "second" (by decide))]⟩
    let s := start.run [first]
    requestId first.1 first.2 = .ofLatin1 "first" (by decide) ∧
      requestId second.1 second.2 = .ofLatin1 "second" (by decide) ∧
      (s.handle second.1 second.2).1.response.head.headers.values .xCache = [Stored.hitMark] ∧
      (s.handle second.1 second.2).1.response.head.headers.values .xRequestId =
        [.ofLatin1 "first" (by decide)] := by
  decide +kernel

end Server

end Gateway
