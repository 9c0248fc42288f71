import Gateway.Proofs.Cache.Steps

/-! Where the answers of a cache come from. Everything that the store holds was deposited under its
key, and a request is answered only with what was deposited for a request like it. -/
namespace Gateway.Cache

open Gateway.Http

theorem Metered.LastWrite.mem {c : Metered} {calls : List Call} {k : Key} {value : Bytes}
    {expires : Time} (h : c.LastWrite calls k value expires) :
    ∃ now draws, Call.set k value expires now draws ∈ calls := by
  obtain ⟨before, now, draws, after, rfl, -⟩ := h
  exact ⟨now, draws, List.mem_append_right before List.mem_cons_self⟩

theorem ResponseCache.answered_of_hit {c : ResponseCache} {q : RequestHead} {now : Time}
    {stored : Stored} (h : (c.lookup (.ofRequest q) now).hit = some stored) :
    (c.receive q now).1 =
      .answered (stored.replay q.headers).1 (stored.replay q.headers).2 := by
  unfold receive
  simp only [h]

namespace Traffic

/-- Everything a reader may find was deposited and is still within its lifetime. -/
structure Traced (w : Traffic) : Prop where
  known : w.Known
  consistent : w.cache.backend.store.Consistent
  -- only for readers from now on: a read removes an expired entry that an earlier reader would find
  deposited : ∀ k blob t, w.now ≤ t → w.cache.backend.store.get? k t = some blob →
    ∃ d ∈ w.deposits, d.variant.key = k ∧ d.blob = blob ∧ ∃ e, d.expires? = some e ∧ t < e

theorem traced_fresh (capacity maxItemSize maxBody : Nat) (metrics : Metrics) (now : Time) :
    (fresh capacity maxItemSize maxBody metrics now).Traced where
  known := ⟨fun x hx => (List.not_mem_nil hx).elim, fun x hx => (List.not_mem_nil hx).elim⟩
  consistent := Metered.consistent_fresh capacity maxItemSize metrics
  deposited := by
    intro k blob t _ h
    cases h

/-- What a reader finds after a run was the last write of its key, which was that of a deposit, or
it was there before. -/
theorem Traced.run {w : Traffic} (h : w.Traced) (events : List Event) : (w.run events).Traced := by
  obtain ⟨hstore, htimes, hlater⟩ := store_run h.known events
  refine ⟨h.known.run events, ?_, ?_⟩
  · rw [hstore]
    exact Metered.consistent_run h.consistent _
  · intro k blob t ht hfound
    rw [hstore, Metered.get?_run h.consistent fun call hc => Nat.le_trans (htimes call hc) ht]
      at hfound
    rcases hfound with ⟨expires, hlast, hlive⟩ | ⟨-, hbefore⟩
    · obtain ⟨now, draws, hset⟩ := hlast.mem
      obtain ⟨d, hd, hkey, hblob, hexpires⟩ := deposit_of_set_run h.known events hset
      exact ⟨d, hd, hkey, hblob, expires, hexpires, hlive⟩
    · obtain ⟨d, hd, hspec⟩ := h.deposited k blob t (Nat.le_trans hlater ht) hbefore
      exact ⟨d, mem_deposits_run h.known events hd, hspec⟩

/-- Among the octets hashed for the deposits and for a lookup of the request, different ones have
different keys. -/
def Collisionless (w : Traffic) (q : RequestHead) : Prop :=
  ∀ d ∈ w.deposits, ∀ u ∈ w.cache.tried (.ofRequest q) w.now,
    d.variant.key = u.key → d.variant.hashInput = u.hashInput

/-- A request that the cache answers gets the replay of a response that was deposited earlier, for a
request for the same resource with the same first value of every header that the response varies
on, and whose lifetime has not ended. -/
theorem answered_of_deposit (capacity maxItemSize maxBody : Nat) (metrics : Metrics) (start : Time)
    (events : List Event) (q : RequestHead) (head : ResponseHead) (body : Bytes) :
    let w := (fresh capacity maxItemSize maxBody metrics start).run events
    w.Collisionless q → (w.cache.receive q w.now).1 = .answered head body →
    ∃ d ∈ w.deposits, ∃ seconds stored,
      lifetime? d.status d.headers = some seconds ∧ w.now < d.time + 1000 * seconds ∧
      Stored.decode d.blob = .ok stored ∧ stored.replay q.headers = (head, body) ∧
      (Variant.ofRequest d.request).SameResource (.ofRequest q) ∧
      ∀ n ∈ varyNames d.headers, d.request.headers.firstBytes n = q.headers.firstBytes n := by
  intro w hkeys hanswer
  have hw : w.Traced := (traced_fresh capacity maxItemSize maxBody metrics start).run events
  obtain ⟨-, -, hhit⟩ := w.cache.lookup_spec (v := .ofRequest q) rfl w.now
  unfold ResponseCache.receive at hanswer
  cases hfound : (w.cache.lookup (.ofRequest q) w.now).hit with
  | none =>
    simp only [hfound] at hanswer
    cases hanswer
  | some stored =>
    simp only [hfound] at hanswer
    obtain ⟨u, hu, hheld⟩ := hhit stored hfound
    obtain ⟨blob, hblob, hdecode⟩ := ResponseCache.held?_eq_some.mp hheld
    obtain ⟨d, hd, hkey, rfl, e, hexpires, hlive⟩ :=
      hw.deposited u.key blob w.now (Nat.le_refl w.now) hblob
    obtain ⟨seconds, hlife, rfl⟩ := Option.map_eq_some_iff.mp hexpires
    obtain ⟨names, rfl⟩ := ResponseCache.tried_withNames hu
    have hd' : d.variant.Delimited :=
      (Variant.delimited_ofRequest d.request).withNames (varyNames d.headers)
    have hq : ((Variant.ofRequest q).withNames names).Delimited :=
      (Variant.delimited_ofRequest q).withNames names
    obtain ⟨hresource, -, hvalues⟩ :=
      (Variant.hashInput_eq_iff hd' hq).mp (hkeys d hd _ hu hkey)
    refine ⟨d, hd, seconds, stored, hlife, hlive, hdecode, ?_, ?_, hvalues⟩
    · cases hanswer
      rfl
    · exact ⟨hresource.method, hresource.path, hresource.query, hresource.host⟩

/-- A response that varies on `Accept-Encoding` answers a later request that asks for the same. -/
theorem answered_of_deposit_same_encoding :
    let request : RequestHead :=
      ⟨.get, ⟨none, none, [47], none, by decide, by simp⟩,
        .ofFields [(.acceptEncoding, .ofLatin1 "gzip" (by decide))]⟩
    let head : ResponseHead :=
      ⟨.ok, .ofFields [(.cacheControl, .ofLatin1 "public, max-age=60" (by decide)),
        (.vary, .ofLatin1 "Accept-Encoding" (by decide))]⟩
    let w := (fresh 1000 1000 100 [] 0).run [.receive request,
      .respond 0 head (.whole [1, 2, 3]) (fun _ _ => 0), .poll 0 (fun _ _ => 0), .advance 59999]
    ∃ d ∈ w.deposits, ∃ seconds, lifetime? d.status d.headers = some seconds ∧
      w.now < d.time + 1000 * seconds ∧
      (Variant.ofRequest d.request).SameResource (.ofRequest request) ∧
      ∀ n ∈ varyNames d.headers, d.request.headers.firstBytes n = request.headers.firstBytes n := by
  intro request head w
  have hkeys : w.Collisionless request := by
    unfold Collisionless
    decide +kernel
  have hhit : (w.cache.lookup (.ofRequest request) w.now).hit.isSome = true := by decide +kernel
  obtain ⟨stored, hstored⟩ := Option.isSome_iff_exists.mp hhit
  obtain ⟨d, hd, seconds, _, hlife, hlive, -, -, hresource, hvalues⟩ :=
    answered_of_deposit 1000 1000 100 [] 0 _ request _ _ hkeys
      (ResponseCache.answered_of_hit hstored)
  exact ⟨d, hd, seconds, hlife, hlive, hresource, hvalues⟩

end Traffic

end Gateway.Cache
