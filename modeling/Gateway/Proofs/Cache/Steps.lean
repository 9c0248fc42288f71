import Gateway.Proofs.Cache.Lookup
import Gateway.Proofs.Cache.Traffic

/-! What the steps of a run come to: the calls that they make on the store, the responses that they
hand to it and the variants whose keys they take. The store that a run leaves is the one that its
calls leave. -/
namespace Gateway.Cache

open Gateway.Http

namespace Metered

/-- The figures have no part in what a call does to the store. -/
theorem store_perform_congr {c d : Metered} (h : c.store = d.store) (call : Call) :
    (c.perform call).store = (d.perform call).store := by
  cases call with
  | set k value expires now draws => simp only [perform, store_set, h]
  | get k now => simp only [perform, store_get, h]
  | purge now => simp only [perform, store_purge, h]

theorem store_run_congr {c d : Metered} (h : c.store = d.store) (calls : List Call) :
    (c.run calls).store = (d.run calls).store := by
  induction calls generalizing c d with
  | nil => exact h
  | cons call rest ih => exact ih (store_perform_congr h call)

theorem run_append (c : Metered) (calls rest : List Call) :
    c.run (calls ++ rest) = (c.run calls).run rest := by
  unfold run
  exact List.foldl_append

end Metered

namespace ResponseCache

/-- The caches hold the same and have the same notes; their figures may differ. -/
structure SameContent (c d : ResponseCache) : Prop where
  store : c.backend.store = d.backend.store
  index : c.index = d.index

theorem SameContent.refl (c : ResponseCache) : SameContent c c := ⟨rfl, rfl⟩

theorem sameContent_count (c : ResponseCache) (outcome : CacheOutcome) :
    SameContent (c.count outcome) c := ⟨rfl, rfl⟩

theorem sameContent_relay (c : ResponseCache) (v : Variant) (cacheable : Bool)
    (head : ResponseHead) (body : Body) :
    SameContent (c.relay v cacheable head body).2 c := by
  unfold relay
  split_ifs <;> exact ⟨rfl, rfl⟩

theorem variant_relay {c : ResponseCache} {v : Variant} {cacheable : Bool} {head : ResponseHead}
    {body : Body} {capture : Capture} {e : Exchange}
    (h : (c.relay v cacheable head body).1.capture = some (capture, e)) : e.variant = v := by
  unfold relay at h
  split_ifs at h
  obtain rfl := (Prod.mk.inj (Option.some.inj h)).2
  rfl

theorem backend_reads (c : ResponseCache) (now : Time) (ks : List Key) :
    (c.reads now ks).backend = c.backend.run (ks.map (Call.get · now)) := by
  induction ks generalizing c with
  | nil => rfl
  | cons k ks ih => exact ih (c.fetch k now).2

theorem Attempt.backend {c : ResponseCache} {tried : List Variant} {base : Key} {now : Time}
    {l : Lookup} (h : Attempt c tried base now l) :
    l.cache.backend = c.backend.run (tried.map fun u => .get u.key now) := by
  have hreads := c.backend_reads now (tried.map Variant.key)
  rw [List.map_map] at hreads
  cases h with
  | missed u hu => exact hreads
  | hit u r hu hheld haccepts => exact hreads

end ResponseCache

/-- The variant was made from the request; only its names may have changed. -/
def Variant.Describes (v : Variant) (r : RequestHead) : Prop :=
  ∃ names, v = (ofRequest r).withNames names

namespace Deposit

def exchange (d : Deposit) : Exchange := ⟨.ofRequest d.request, d.status, d.headers⟩

/-- The write that hands a deposit to the backend. -/
def calls (d : Deposit) (draws : Draws) : List Call :=
  match d.expires? with
  | none => []
  | some expires => [.set d.variant.key d.blob expires d.time draws]

/-- The variants whose keys are taken for a deposit. -/
def keyed (d : Deposit) : List Variant := [.ofRequest d.request, d.variant]

end Deposit

namespace ResponseCache

theorem SameContent.store_congr {c d : ResponseCache} (h : SameContent c d) (e : Exchange)
    (body : Bytes) (now : Time) (draws : Draws) :
    SameContent (c.store e body now draws) (d.store e body now draws) := by
  unfold ResponseCache.store
  cases lifetime? e.status e.headers with
  | none => exact h
  | some seconds =>
    refine ⟨?_, congrArg (VaryIndex.remember · _ _) h.index⟩
    exact Metered.store_perform_congr h.store (.set _ _ _ now draws)

/-- A store goes by the request alone: it sets the names itself. -/
theorem store_of_describes {e : Exchange} {r : RequestHead} (h : e.variant.Describes r)
    (c : ResponseCache) (body : Bytes) (now : Time) (draws : Draws) :
    c.store e body now draws = c.store ⟨.ofRequest r, e.status, e.headers⟩ body now draws := by
  obtain ⟨names, hv⟩ := h
  unfold store
  rw [hv]
  rfl

theorem backend_store_deposit (c : ResponseCache) (d : Deposit) (draws : Draws) :
    (c.store d.exchange d.body d.time draws).backend.store =
      (c.backend.run (d.calls draws)).store := by
  unfold store Deposit.calls Deposit.expires?
  have hsame : lifetime? d.exchange.status d.exchange.headers = lifetime? d.status d.headers := rfl
  rw [hsame]
  cases lifetime? d.status d.headers with
  | none => rfl
  | some seconds => rfl

theorem index_store_of_none (c : ResponseCache) {d : Deposit} (h : d.expires? = none)
    (draws : Draws) : (c.store d.exchange d.body d.time draws).index = c.index := by
  have hnone : lifetime? d.exchange.status d.exchange.headers = none := Option.map_eq_none_iff.mp h
  unfold store
  rw [hnone]

theorem index_store_deposit (c : ResponseCache) {d : Deposit} {expires : Time}
    (h : d.expires? = some expires) (draws : Draws) :
    (c.store d.exchange d.body d.time draws).index =
      c.index.remember (Variant.ofRequest d.request).key (varyNames d.headers) := by
  obtain ⟨seconds, hlife, -⟩ := Option.map_eq_some_iff.mp h
  have hsame : lifetime? d.exchange.status d.exchange.headers = some seconds := hlife
  unfold store
  rw [hsame]
  rfl

end ResponseCache

namespace Traffic

/-- What each step of a run contributes, in order. -/
def gather {α : Type} (f : Traffic → Event → List α) (w : Traffic) : List Event → List α
  | [] => []
  | event :: rest => f w event ++ gather f (w.step event) rest

theorem gather_append {α : Type} (f : Traffic → Event → List α) (w : Traffic)
    (events rest : List Event) :
    w.gather f (events ++ rest) = w.gather f events ++ (w.run events).gather f rest := by
  induction events generalizing w with
  | nil => rfl
  | cons event events ih =>
    simp only [List.cons_append, gather, ih, List.append_assoc]
    rfl

end Traffic

def Event.draws : Event → Draws
  | .respond _ _ _ draws | .poll _ draws => draws
  | .receive _ | .fail _ | .purge | .advance _ => fun _ _ => 0

namespace Traffic

def added (w : Traffic) (event : Event) : List Deposit :=
  (w.step event).deposits.take ((w.step event).deposits.length - w.deposits.length)

/-- The calls that a step makes on the store. -/
def calls (w : Traffic) : Event → List Call
  | .receive r => (w.cache.tried (.ofRequest r) w.now).map fun u => .get u.key w.now
  | .purge => [.purge w.now]
  | event => (w.added event).flatMap fun d => d.calls event.draws

/-- The variants whose keys a step takes. -/
def keyed (w : Traffic) : Event → List Variant
  | .receive r => .ofRequest r :: w.cache.tried (.ofRequest r) w.now
  | .purge => []
  | event => (w.added event).flatMap Deposit.keyed

/-- What a step does to the cache, with its calls and the variants whose keys it takes. -/
inductive Effect (w : Traffic) : List Call → List Variant → Traffic → Prop
  | looked (r : RequestHead) (w' : Traffic)
      (hcache : w'.cache.SameContent (w.cache.lookup (.ofRequest r) w.now).cache)
      (hdeposits : w'.deposits = w.deposits) (hnow : w'.now = w.now) :
    Effect w ((w.cache.tried (.ofRequest r) w.now).map fun u => .get u.key w.now)
      (.ofRequest r :: w.cache.tried (.ofRequest r) w.now) w'
  | deposited (d : Deposit) (draws : Draws) (w' : Traffic) (htime : d.time = w.now)
      (hcache : w'.cache.SameContent (w.cache.store d.exchange d.body d.time draws))
      (hdeposits : w'.deposits = d :: w.deposits) (hnow : w'.now = w.now) :
    Effect w (d.calls draws) d.keyed w'
  | swept (w' : Traffic) (hstore : w'.cache.backend.store = (w.cache.backend.purge w.now).2.store)
      (hindex : w'.cache.index = w.cache.index)
      (hdeposits : w'.deposits = w.deposits) (hnow : w'.now = w.now) :
    Effect w [.purge w.now] [] w'
  | idle (w' : Traffic) (hcache : w'.cache.SameContent w.cache)
      (hdeposits : w'.deposits = w.deposits) (hnow : w.now ≤ w'.now) : Effect w [] [] w'

/-- A step that does no more than hand over what is new among the deposits. -/
def HandsOver (w : Traffic) (draws : Draws) (w' : Traffic) : Prop :=
  ∃ ds, w'.deposits = ds ++ w.deposits ∧
    Effect w (ds.flatMap (·.calls draws)) (ds.flatMap Deposit.keyed) w'

theorem HandsOver.of_idle {w w' : Traffic} {draws : Draws} (hcache : w'.cache.SameContent w.cache)
    (hdeposits : w'.deposits = w.deposits) (hnow : w.now ≤ w'.now) : HandsOver w draws w' :=
  ⟨[], hdeposits, .idle w' hcache hdeposits hnow⟩

/-- What is on its way is known by the request it belongs to. -/
structure Known (w : Traffic) : Prop where
  waiting : ∀ x ∈ w.waiting, x.variant.Describes x.request
  capturing : ∀ x ∈ w.capturing, x.exchange.variant.Describes x.request

theorem Known.settle {w : Traffic} (h : w.Known) (c : Capturing) (draws : Draws) :
    (w.settle c draws).Known := by
  unfold Traffic.settle
  cases c.capture.captured with
  | none => exact h
  | some body => exact ⟨h.waiting, h.capturing⟩

/-- A body that is complete is handed to the store; otherwise a capture only goes on. -/
theorem handsOver_settle {w w₁ : Traffic} (hcache : w₁.cache.SameContent w.cache)
    (hdeposits : w₁.deposits = w.deposits) (hnow : w₁.now = w.now) {c : Capturing}
    (hc : c.exchange.variant.Describes c.request) (draws : Draws) :
    HandsOver w draws (w₁.settle c draws) := by
  unfold settle ResponseCache.settle
  cases c.capture.captured with
  | none => exact .of_idle hcache hdeposits (Nat.le_of_eq hnow.symm)
  | some body =>
    let d : Deposit := ⟨c.request, c.exchange.status, c.exchange.headers, body, w.now⟩
    have hd : (⟨c.request, c.exchange.status, c.exchange.headers, body, w₁.now⟩ : Deposit) = d := by
      rw [hnow]
    dsimp only
    rw [hd, hdeposits, ResponseCache.store_of_describes hc, hnow]
    refine ⟨[d], rfl, ?_⟩
    simp only [List.flatMap_singleton]
    exact .deposited d draws _ rfl (hcache.store_congr d.exchange body w.now draws) rfl rfl

theorem receive_spec {w : Traffic} (h : w.Known) (r : RequestHead) :
    (w.receive r).Known ∧ Effect w (w.calls (.receive r)) (w.keyed (.receive r)) (w.receive r) := by
  have hattempt := w.cache.attempt_lookup (v := .ofRequest r) rfl w.now
  have hvariant : (w.cache.lookup (.ofRequest r) w.now).variant.Describes r :=
    ResponseCache.tried_withNames hattempt.variant_mem
  unfold receive ResponseCache.receive
  dsimp only
  cases (w.cache.lookup (.ofRequest r) w.now).hit with
  | some stored =>
    refine ⟨⟨h.waiting, h.capturing⟩, ?_⟩
    exact .looked r _ (ResponseCache.sameContent_count _ .hit) rfl rfl
  | none =>
    refine ⟨⟨fun x hx => ?_, h.capturing⟩, .looked r _ (.refl _) rfl rfl⟩
    rcases List.mem_append.mp hx with hx | hx
    · exact h.waiting x hx
    · obtain rfl := List.mem_singleton.mp hx
      exact hvariant

theorem respond_spec {w : Traffic} (h : w.Known) (i : Nat) {x : Waiting}
    (hx : x.variant.Describes x.request) (head : ResponseHead) (body : Body) (draws : Draws) :
    let w' := { w with waiting := w.waiting.eraseIdx i }.respond x head body draws
    w'.Known ∧ HandsOver w draws w' := by
  have hcache := w.cache.sameContent_relay x.variant x.cacheable head body
  have hcapture := @ResponseCache.variant_relay w.cache x.variant x.cacheable head body
  have hwaiting : ∀ y ∈ w.waiting.eraseIdx i, y.variant.Describes y.request := fun y hy =>
    h.waiting y (List.mem_of_mem_eraseIdx hy)
  unfold respond
  generalize w.cache.relay x.variant x.cacheable head body = relayed at hcache hcapture
  obtain ⟨⟨shown, passed, capture⟩, cache⟩ := relayed
  cases capture with
  | none =>
    exact ⟨⟨hwaiting, h.capturing⟩, .of_idle hcache rfl (Nat.le_refl w.now)⟩
  | some capture =>
    obtain ⟨capture, exchange⟩ := capture
    have hvariant : exchange.variant.Describes x.request := by
      rw [hcapture rfl]
      exact hx
    let c : Capturing := ⟨x.request, capture, exchange⟩
    let w₁ : Traffic :=
      { w with cache, waiting := w.waiting.eraseIdx i, capturing := w.capturing ++ [c] }
    have hknown : w₁.Known := by
      refine ⟨hwaiting, fun y hy => ?_⟩
      rcases List.mem_append.mp hy with hy | hy
      · exact h.capturing y hy
      · obtain rfl := List.mem_singleton.mp hy
        exact hvariant
    have hsame : w₁.cache.SameContent w.cache := hcache
    exact ⟨hknown.settle c draws, handsOver_settle hsame rfl rfl (c := c) hvariant draws⟩

theorem poll_spec {w : Traffic} (h : w.Known) (i : Nat) {c : Capturing}
    (hc : c.exchange.variant.Describes c.request) (draws : Draws) :
    (w.poll i c draws).Known ∧ HandsOver w draws (w.poll i c draws) := by
  let polled : Capturing := { c with capture := c.capture.poll.2 }
  let w₁ : Traffic := { w with capturing := w.capturing.set i polled }
  have hsame : w₁.cache.SameContent w.cache := .refl w.cache
  have hknown : w₁.Known := by
    refine ⟨h.waiting, fun y hy => ?_⟩
    rcases List.mem_or_eq_of_mem_set hy with hy | rfl
    · exact h.capturing y hy
    · exact hc
  unfold poll
  dsimp only
  split_ifs
  · exact ⟨hknown, .of_idle hsame rfl (Nat.le_refl w.now)⟩
  · exact ⟨hknown.settle polled draws, handsOver_settle hsame rfl rfl (c := polled) hc draws⟩

theorem added_eq {w : Traffic} {event : Event} {ds : List Deposit}
    (h : (w.step event).deposits = ds ++ w.deposits) : w.added event = ds := by
  simp [added, h]

/-- A step keeps known what is on its way, and does no more to the cache than its effect says. -/
theorem step_spec {w : Traffic} (h : w.Known) (event : Event) :
    (w.step event).Known ∧ Effect w (w.calls event) (w.keyed event) (w.step event) := by
  have hothers : (w.step event).Known ∧ HandsOver w event.draws (w.step event) →
      (w.step event).Known ∧ Effect w ((w.added event).flatMap (·.calls event.draws))
        ((w.added event).flatMap Deposit.keyed) (w.step event) := by
    rintro ⟨hknown, ds, hds, heffect⟩
    rw [added_eq hds]
    exact ⟨hknown, heffect⟩
  have hidle : HandsOver w event.draws w := .of_idle (.refl w.cache) rfl (Nat.le_refl w.now)
  cases event with
  | receive r => exact receive_spec h r
  | purge => exact ⟨⟨h.waiting, h.capturing⟩, .swept (w.step .purge) rfl rfl rfl rfl⟩
  | fail i =>
    have hwaiting : ∀ y ∈ w.waiting.eraseIdx i, y.variant.Describes y.request := fun y hy =>
      h.waiting y (List.mem_of_mem_eraseIdx hy)
    exact hothers ⟨⟨hwaiting, h.capturing⟩, .of_idle (.refl w.cache) rfl (Nat.le_refl w.now)⟩
  | advance ms =>
    refine hothers ⟨⟨h.waiting, h.capturing⟩, ?_⟩
    exact .of_idle (.refl w.cache) rfl (Nat.le_add_right w.now ms)
  | respond i head body draws =>
    refine hothers ?_
    unfold step
    dsimp only
    cases hx : w.waiting[i]? with
    | none => exact ⟨h, hidle⟩
    | some x => exact respond_spec h i (h.waiting x (List.mem_of_getElem? hx)) head body draws
  | poll i draws =>
    refine hothers ?_
    unfold step
    dsimp only
    cases hc : w.capturing[i]? with
    | none => exact ⟨h, hidle⟩
    | some c => exact poll_spec h i (h.capturing c (List.mem_of_getElem? hc)) draws

theorem Known.run {w : Traffic} (h : w.Known) (events : List Event) : (w.run events).Known := by
  induction events generalizing w with
  | nil => exact h
  | cons event rest ih => exact ih (step_spec h event).1

/-- The store after a step is the one that its calls leave. -/
theorem Effect.store_eq {w w' : Traffic} {calls : List Call} {keyed : List Variant}
    (h : Effect w calls keyed w') :
    w'.cache.backend.store = (w.cache.backend.run calls).store := by
  cases h with
  | looked r w' hcache hdeposits hnow =>
    have hattempt := w.cache.attempt_lookup (v := .ofRequest r) rfl w.now
    rw [hcache.store, hattempt.backend]
  | deposited d draws w' htime hcache hdeposits hnow =>
    rw [hcache.store, w.cache.backend_store_deposit d draws]
  | swept w' hstore hindex hdeposits hnow => exact hstore
  | idle w' hcache hdeposits hnow => exact hcache.store

theorem Effect.time_le {w w' : Traffic} {calls : List Call} {keyed : List Variant}
    (h : Effect w calls keyed w') : (∀ call ∈ calls, call.time ≤ w.now) ∧ w.now ≤ w'.now := by
  cases h with
  | looked r w' hcache hdeposits hnow =>
    refine ⟨fun call hcall => ?_, Nat.le_of_eq hnow.symm⟩
    obtain ⟨u, -, rfl⟩ := List.mem_map.mp hcall
    exact Nat.le_refl w.now
  | deposited d draws w' htime hcache hdeposits hnow =>
    refine ⟨fun call hcall => ?_, Nat.le_of_eq hnow.symm⟩
    unfold Deposit.calls at hcall
    split at hcall
    · cases hcall
    · obtain rfl := List.mem_singleton.mp hcall
      exact Nat.le_of_eq htime
  | swept w' hstore hindex hdeposits hnow =>
    refine ⟨fun call hcall => ?_, Nat.le_of_eq hnow.symm⟩
    obtain rfl := List.mem_singleton.mp hcall
    exact Nat.le_refl w.now
  | idle w' hcache hdeposits hnow => exact ⟨fun call hcall => (List.not_mem_nil hcall).elim, hnow⟩

/-- Every write of a step is that of a deposit. -/
theorem Effect.deposit_of_set {w w' : Traffic} {calls : List Call} {keyed : List Variant}
    (h : Effect w calls keyed w') {k : Key} {value : Bytes} {expires now : Time} {draws : Draws}
    (hset : Call.set k value expires now draws ∈ calls) :
    ∃ d ∈ w'.deposits, d.variant.key = k ∧ d.blob = value ∧ d.expires? = some expires := by
  cases h with
  | looked r w' hcache hdeposits hnow =>
    obtain ⟨u, -, hget⟩ := List.mem_map.mp hset
    cases hget
  | deposited d draws w' htime hcache hdeposits hnow =>
    unfold Deposit.calls at hset
    cases hexpires : d.expires? with
    | none =>
      rw [hexpires] at hset
      cases hset
    | some e =>
      rw [hexpires] at hset
      cases List.mem_singleton.mp hset
      exact ⟨d, by rw [hdeposits]; exact List.mem_cons_self, rfl, rfl, hexpires⟩
  | swept w' hstore hindex hdeposits hnow => cases List.mem_singleton.mp hset
  | idle w' hcache hdeposits hnow => cases hset

/-- A step adds deposits in front, and takes their keys. -/
theorem Effect.deposits_eq {w w' : Traffic} {calls : List Call} {keyed : List Variant}
    (h : Effect w calls keyed w') :
    ∃ ds, w'.deposits = ds ++ w.deposits ∧ ∀ d ∈ ds, ∀ u ∈ d.keyed, u ∈ keyed := by
  cases h with
  | deposited d draws w' htime hcache hdeposits hnow =>
    refine ⟨[d], hdeposits, fun e he u hu => ?_⟩
    rwa [← List.mem_singleton.mp he]
  | looked r w' hcache hdeposits hnow | swept w' hstore hindex hdeposits hnow
  | idle w' hcache hdeposits hnow =>
    exact ⟨[], hdeposits, fun e he => (List.not_mem_nil he).elim⟩

section Runs
variable {w : Traffic} (h : w.Known) (events : List Event)
include h

theorem mem_deposits_run {d : Deposit} (hd : d ∈ w.deposits) : d ∈ (w.run events).deposits := by
  induction events generalizing w with
  | nil => exact hd
  | cons event rest ih =>
    obtain ⟨hknown, heffect⟩ := step_spec h event
    obtain ⟨ds, hds, -⟩ := heffect.deposits_eq
    refine ih hknown ?_
    rw [hds]
    exact List.mem_append_right ds hd

/-- The keys of whatever is deposited in a run are taken in it. -/
theorem keyed_run {d : Deposit} (hd : d ∈ (w.run events).deposits) :
    d ∈ w.deposits ∨ ∀ u ∈ d.keyed, u ∈ w.gather keyed events := by
  induction events generalizing w with
  | nil => exact .inl hd
  | cons event rest ih =>
    obtain ⟨hknown, heffect⟩ := step_spec h event
    obtain ⟨ds, hds, hkeyed⟩ := heffect.deposits_eq
    rcases ih hknown hd with hold | hnew
    · rw [hds] at hold
      rcases List.mem_append.mp hold with hnow | hbefore
      · exact .inr fun u hu => List.mem_append_left _ (hkeyed d hnow u hu)
      · exact .inl hbefore
    · exact .inr fun u hu => List.mem_append_right _ (hnew u hu)

theorem deposit_of_set_run {k : Key} {value : Bytes} {expires now : Time} {draws : Draws}
    (hset : Call.set k value expires now draws ∈ w.gather calls events) :
    ∃ d ∈ (w.run events).deposits,
      d.variant.key = k ∧ d.blob = value ∧ d.expires? = some expires := by
  induction events generalizing w with
  | nil => cases hset
  | cons event rest ih =>
    obtain ⟨hknown, heffect⟩ := step_spec h event
    rcases List.mem_append.mp hset with hset | hset
    · obtain ⟨d, hd, hspec⟩ := heffect.deposit_of_set hset
      exact ⟨d, mem_deposits_run hknown rest hd, hspec⟩
    · exact ih hknown hset

/-- The store that a run leaves is the one that its calls leave, none of them made after the end. -/
theorem store_run :
    (w.run events).cache.backend.store =
        (w.cache.backend.run (w.gather calls events)).store ∧
      (∀ call ∈ w.gather calls events, call.time ≤ (w.run events).now) ∧
      w.now ≤ (w.run events).now := by
  induction events generalizing w with
  | nil => exact ⟨rfl, fun call hcall => (List.not_mem_nil hcall).elim, Nat.le_refl w.now⟩
  | cons event rest ih =>
    obtain ⟨hknown, heffect⟩ := step_spec h event
    obtain ⟨htimes, hlater⟩ := heffect.time_le
    obtain ⟨hstore, hrest, hend⟩ := ih hknown
    refine ⟨?_, fun call hcall => ?_, Nat.le_trans hlater hend⟩
    · rw [gather, Metered.run_append]
      exact hstore.trans (Metered.store_run_congr heffect.store_eq _)
    · rcases List.mem_append.mp hcall with hcall | hcall
      · exact Nat.le_trans (htimes call hcall) (Nat.le_trans hlater hend)
      · exact hrest call hcall

end Runs

end Traffic

end Gateway.Cache
