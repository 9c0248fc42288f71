import Gateway.Proofs.Cache.Outcomes
import Gateway.Proofs.Cache.Steps

/-! A run of the cache written down exchange by exchange. Every request keeps its place, with what
has become of it and how far its response has been read, whether it is captured or not, and every
write to the backend is noted with the place of the request that it was made for. -/
namespace Gateway.Cache

open Gateway.Http

inductive Course where
  | answered
  | passed (variant : Variant) (cacheable : Bool)
  | failed
  /-- The client has polled the origin's response so often. -/
  | returned (app : Response ResponseHead) (polls : Nat) (capture : Option (Capture × Exchange))

structure Round where
  request : RequestHead
  course : Course

structure Journal where
  cache : ResponseCache
  now : Time
  rounds : List Round
  writes : List (Nat × Call)

namespace Journal

def start (cache : ResponseCache) (now : Time) : Journal := ⟨cache, now, [], []⟩

def put (w : Journal) (n : Nat) (r : RequestHead) (course : Course) : Journal :=
  { w with rounds := w.rounds.set n ⟨r, course⟩ }

/-- Stores what a capture has handed over, if it has. -/
def settle (w : Journal) (n : Nat) (r : RequestHead) (draws : Draws) :
    Option (Capture × Exchange) → Journal
  | none => w
  | some (capture, e) =>
    match capture.captured with
    | none => w
    | some body =>
      let d : Deposit := ⟨r, e.status, e.headers, body, w.now⟩
      { w with
        cache := w.cache.settle capture e w.now draws
        writes := w.writes ++ (d.calls draws).map (n, ·) }

def receive (w : Journal) (r : RequestHead) : Journal :=
  match w.cache.receive r w.now with
  | (.answered _ _, cache) => { w with cache, rounds := w.rounds ++ [⟨r, .answered⟩] }
  | (.passed variant cacheable, cache) =>
    { w with cache, rounds := w.rounds ++ [⟨r, .passed variant cacheable⟩] }

def respond (w : Journal) (n : Nat) (r : RequestHead) (variant : Variant) (cacheable : Bool)
    (app : Response ResponseHead) (draws : Draws) : Journal :=
  let (returned, cache) := w.cache.relay variant cacheable app.head app.body
  ({ w with cache }.put n r (.returned app 0 returned.capture)).settle n r draws returned.capture

/-- The client reads on; what has been handed over stays so. -/
def poll (w : Journal) (n : Nat) (r : RequestHead) (app : Response ResponseHead) (polls : Nat)
    (draws : Draws) : Option (Capture × Exchange) → Journal
  | none => w.put n r (.returned app (polls + 1) none)
  | some (capture, e) =>
    let polled := some (capture.poll.2, e)
    let w := w.put n r (.returned app (polls + 1) polled)
    if capture.captured.isSome then w else w.settle n r draws polled

/-- Takes up an event, whose number is the place of its request. A client that drops a response
polls it no more. -/
def step (w : Journal) : Event → Journal
  | .receive r => w.receive r
  | .respond n head body draws =>
    match w.rounds[n]? with
    | some ⟨r, .passed variant cacheable⟩ => w.respond n r variant cacheable ⟨head, body⟩ draws
    | _ => w
  | .fail n =>
    match w.rounds[n]? with
    | some ⟨r, .passed _ _⟩ => w.put n r .failed
    | _ => w
  | .poll n draws =>
    match w.rounds[n]? with
    | some ⟨r, .returned app polls capture⟩ => w.poll n r app polls draws capture
    | _ => w
  | .purge => { w with cache := { w.cache with backend := (w.cache.backend.purge w.now).2 } }
  | .advance ms => { w with now := w.now + ms }

def run (w : Journal) (events : List Event) : Journal := events.foldl step w

def writesOf (w : Journal) (n : Nat) : List Call := (w.writes.filter (·.1 == n)).map Prod.snd

end Journal

def Call.isWrite : Call → Bool
  | set .. => true
  | get .. | purge _ => false

namespace ResponseCache

def stores (c : ResponseCache) : Nat := (c.backend.metrics.value .cacheStores).getD 0

theorem stores_count (c : ResponseCache) (outcome : CacheOutcome) :
    (c.count outcome).stores = c.stores := by
  unfold count stores Metrics.count
  rw [Metrics.value_add, if_neg (by simp)]

theorem stores_relay (c : ResponseCache) (v : Variant) (cacheable : Bool) (head : ResponseHead)
    (body : Body) : (c.relay v cacheable head body).2.stores = c.stores := by
  unfold relay
  split_ifs <;> exact stores_count c _

theorem stores_reads (c : ResponseCache) (now : Time) (ks : List Key) :
    (c.reads now ks).stores = c.stores := by
  induction ks generalizing c with
  | nil => rfl
  | cons k ks ih =>
    refine (ih (c.fetch k now).2).trans ?_
    have hown : Metered.isOwn .cacheStores = false := rfl
    exact congrArg (·.getD 0) (c.backend.value_get k now hown)

theorem Attempt.stores {c : ResponseCache} {tried : List Variant} {base : Key} {now : Time}
    {l : Lookup} (h : Attempt c tried base now l) : l.cache.stores = c.stores := by
  cases h with
  | missed u hu => exact c.stores_reads now _
  | hit u r hu hheld haccepts => exact c.stores_reads now _

/-- Every write is counted, and nothing else is. -/
theorem stores_store_deposit (c : ResponseCache) (d : Deposit) (draws : Draws) :
    (c.store d.exchange d.body d.time draws).stores = c.stores + (d.calls draws).length := by
  unfold store Deposit.calls Deposit.expires? stores
  have hsame : lifetime? d.exchange.status d.exchange.headers = lifetime? d.status d.headers := rfl
  rw [hsame]
  cases lifetime? d.status d.headers with
  | none => rfl
  | some seconds =>
    dsimp only [Option.map_some]
    rw [Metrics.count, Metrics.value_add, Metered.value_set _ _ _ _ _ _ rfl]
    simp

theorem maxBody_reads (c : ResponseCache) (now : Time) (ks : List Key) :
    (c.reads now ks).maxBody = c.maxBody := by
  induction ks generalizing c with
  | nil => rfl
  | cons k ks ih => exact ih (c.fetch k now).2

theorem Attempt.maxBody {c : ResponseCache} {tried : List Variant} {base : Key} {now : Time}
    {l : Lookup} (h : Attempt c tried base now l) : l.cache.maxBody = c.maxBody := by
  cases h with
  | missed u hu => exact c.maxBody_reads now _
  | hit u r hu hheld haccepts => exact c.maxBody_reads now _

theorem maxBody_store (c : ResponseCache) (e : Exchange) (body : Bytes) (now : Time)
    (draws : Draws) : (c.store e body now draws).maxBody = c.maxBody := by
  unfold store
  cases lifetime? e.status e.headers <;> rfl

theorem maxBody_relay (c : ResponseCache) (v : Variant) (cacheable : Bool) (head : ResponseHead)
    (body : Body) : (c.relay v cacheable head body).2.maxBody = c.maxBody := by
  unfold relay
  split_ifs <;> rfl

/-- The body is captured if the request is cacheable and the response may be stored. -/
theorem capture_relay (c : ResponseCache) (v : Variant) (cacheable : Bool) (head : ResponseHead)
    (body : Body) : (c.relay v cacheable head body).1.capture =
      if cacheable = true ∧ mayStore head.status head.headers = true then
        some (Capture.start body c.maxBody, ⟨v, head.status, head.headers⟩)
      else none := by
  unfold relay
  cases cacheable <;> simp

end ResponseCache

namespace Journal

/-- The store is what reads, sweeps and the noted writes have made of it, and as many writes were
counted as are noted. -/
structure Logged (w w' : Journal) : Prop where
  store : ∃ calls news, w'.cache.backend.store = (w.cache.backend.run calls).store ∧
    calls.filter Call.isWrite = news.map Prod.snd ∧ w'.writes = w.writes ++ news
  stores : w'.cache.stores + w.writes.length = w.cache.stores + w'.writes.length
  maxBody : w'.cache.maxBody = w.cache.maxBody

namespace Logged

/-- A step that writes nothing. -/
theorem of_calls {w w' : Journal} {calls : List Call} (hcalls : calls.filter Call.isWrite = [])
    (hstore : w'.cache.backend.store = (w.cache.backend.run calls).store)
    (hwrites : w'.writes = w.writes) (hstores : w'.cache.stores = w.cache.stores)
    (hmax : w'.cache.maxBody = w.cache.maxBody) : Logged w w' where
  store := ⟨calls, [], hstore, hcalls, by rw [hwrites, List.append_nil]⟩
  stores := by rw [hwrites, hstores]
  maxBody := hmax

theorem of_same {w w' : Journal} (hstore : w'.cache.backend.store = w.cache.backend.store)
    (hwrites : w'.writes = w.writes) (hstores : w'.cache.stores = w.cache.stores)
    (hmax : w'.cache.maxBody = w.cache.maxBody) : Logged w w' where
  store := ⟨[], [], hstore, rfl, by rw [hwrites, List.append_nil]⟩
  stores := by rw [hwrites, hstores]
  maxBody := hmax

theorem refl (w : Journal) : Logged w w := of_same rfl rfl rfl rfl

theorem trans {w₁ w₂ w₃ : Journal} (h : Logged w₁ w₂) (h' : Logged w₂ w₃) : Logged w₁ w₃ where
  store := by
    obtain ⟨calls, news, hstore, hcalls, hwrites⟩ := h.store
    obtain ⟨calls', news', hstore', hcalls', hwrites'⟩ := h'.store
    refine ⟨calls ++ calls', news ++ news', ?_, ?_, ?_⟩
    · rw [hstore', Metered.run_append]
      exact Metered.store_run_congr hstore calls'
    · rw [List.filter_append, hcalls, hcalls', List.map_append]
    · rw [hwrites', hwrites, List.append_assoc]
  stores := by
    have hfirst := h.stores
    have hsecond := h'.stores
    omega
  maxBody := h'.maxBody.trans h.maxBody

end Logged

theorem logged_settle (w : Journal) (n : Nat) {r : RequestHead} (draws : Draws)
    {capture : Option (Capture × Exchange)}
    (h : ∀ p ∈ capture, p.2.variant.Describes r) : Logged w (w.settle n r draws capture) := by
  unfold settle
  cases capture with
  | none => exact .refl w
  | some p =>
    obtain ⟨capture, e⟩ := p
    dsimp only
    unfold ResponseCache.settle
    cases capture.captured with
    | none => exact .refl w
    | some body =>
      let d : Deposit := ⟨r, e.status, e.headers, body, w.now⟩
      have hstore : w.cache.store e body w.now draws =
          w.cache.store d.exchange d.body d.time draws :=
        ResponseCache.store_of_describes (h _ rfl) w.cache body w.now draws
      have hwrite : (d.calls draws).filter Call.isWrite = d.calls draws := by
        unfold Deposit.calls
        cases d.expires? <;> rfl
      refine ⟨⟨d.calls draws, (d.calls draws).map (n, ·), ?_, ?_, rfl⟩, ?_, ?_⟩
      · dsimp only
        rw [hstore]
        exact w.cache.backend_store_deposit d draws
      · rw [hwrite, List.map_map]
        exact (List.map_id _).symm
      · change (w.cache.store e body w.now draws).stores + w.writes.length =
          w.cache.stores + (w.writes ++ (d.calls draws).map (n, ·)).length
        rw [hstore, w.cache.stores_store_deposit d draws, List.length_append, List.length_map]
        omega
      · exact w.cache.maxBody_store e body w.now draws

end Journal

end Gateway.Cache
