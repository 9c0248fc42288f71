import Gateway.Proofs.Cache.Answers
import Gateway.Proofs.Cache.Partition

/-! Stores that do not reach the backend because it drops the blob. The names that the response
declares are noted before, and stay: lookups of the resource begin with them from then on. -/
namespace Gateway.Cache

open Gateway.Http

namespace Exchange

def baseKey (e : Exchange) : Key := (e.variant.withNames []).key

def blob (e : Exchange) (body : Bytes) : Bytes :=
  Stored.encode ⟨e.status, e.headers, body, (e.variant.learn e.headers).recorded⟩

end Exchange

namespace ResponseCache

/-- What is written for the exchange is too large for the backend. -/
def Drops (c : ResponseCache) (e : Exchange) (body : Bytes) : Prop :=
  c.backend.store.maxItemSize < (e.blob body).length ∨
    c.backend.store.capacity < (e.blob body).length

instance (c : ResponseCache) (e : Exchange) (body : Bytes) : Decidable (c.Drops e body) :=
  inferInstanceAs (Decidable (_ ∨ _))

section Dropped
variable {c : ResponseCache} {e : Exchange} {body : Bytes}

/-- Of a store that the backend drops only the names stay. -/
theorem store_of_drops (hstored : mayStore e.status e.headers = true) (hdrops : c.Drops e body)
    (now : Time) (draws : Draws) :
    (c.store e body now draws).backend.store = c.backend.store ∧
      (c.store e body now draws).index = c.index.remember e.baseKey (varyNames e.headers) := by
  obtain ⟨seconds, hlife⟩ := Option.isSome_iff_exists.mp hstored
  have hrefused : ¬ c.backend.store.Accepts (e.blob body) (now + 1000 * seconds) now := by
    rintro ⟨hitem, hcapacity, -⟩
    unfold Drops at hdrops
    omega
  unfold store
  rw [hlife]
  refine ⟨?_, rfl⟩
  dsimp only
  rw [Metered.store_set]
  rcases Store.set_of_not_accepts hrefused (e.variant.learn e.headers).key draws with hset | hset
  · exact congrArg Prod.snd hset
  · exact congrArg Prod.snd hset

/-- A store that the backend drops takes nothing from it, but the names noted for the resource are
now those of the dropped response. So it leaves the lookup of a request as it was exactly when the
request has another base key, or these names lead to the same answer as those noted before. -/
theorem lookup_store_of_drops (hstored : mayStore e.status e.headers = true)
    (hdrops : c.Drops e body) (now : Time) (draws : Draws) :
    let after := c.store e body now draws
    after.backend.store = c.backend.store ∧
      (∀ k, after.index.names k =
        if k = e.baseKey then varyNames e.headers else c.index.names k) ∧
      ∀ (q : RequestHead) (t : Time),
        let v := Variant.ofRequest q
        (after.lookup v t).hit = (c.lookup v t).hit ↔
          v.key ≠ e.baseKey ∨
            (c.found? v (varyNames e.headers) t).map Prod.snd =
              (c.found? v (c.index.names e.baseKey) t).map Prod.snd := by
  intro after
  obtain ⟨hstore, hindex⟩ := store_of_drops hstored hdrops now draws
  have hnames : ∀ k, after.index.names k =
      if k = e.baseKey then varyNames e.headers else c.index.names k := by
    intro k
    rw [hindex, VaryIndex.names_remember]
  refine ⟨hstore, hnames, fun q t => ?_⟩
  intro v
  have hreads : ReadsAs t after c := .of_store_eq hstore
  rw [after.hit_lookup rfl, c.hit_lookup rfl, hreads.found?_eq, hnames]
  by_cases hbase : v.key = e.baseKey
  · rw [if_pos hbase, hbase]
    exact (or_iff_right (not_not.mpr rfl)).symm
  · rw [if_neg hbase]
    exact iff_of_true rfl (.inl hbase)

end Dropped

/-- A cache with nothing in it that takes no item of more than a hundred octets. -/
def smallItems : ResponseCache := ⟨⟨.empty 1000 100, []⟩, [], 1000⟩

/-- The answer to a request of this user, which may be stored and varies on these names. -/
def userExchange (user vary : HeaderValue) : Exchange :=
  let maxAge := (HeaderName.cacheControl, HeaderValue.ofLatin1 "public, max-age=60" (by decide))
  ⟨.ofRequest (Variant.cookieRequest [user]), .ok, .ofFields [maxAge, (.vary, vary)]⟩

/-- The dropped response declares what is noted already, so the one of the other user is found as
before. -/
theorem lookup_store_of_drops_same_names :
    let draws : Draws := fun _ _ => 0
    let a := HeaderValue.ofLatin1 "user=a" (by decide)
    let kept := userExchange a (.ofLatin1 "Cookie" (by decide))
    let large := userExchange (.ofLatin1 "user=b" (by decide)) (.ofLatin1 "cookie" (by decide))
    let c := smallItems.store kept [1, 2, 3] 0 draws
    let body := List.replicate 200 7
    let v := Variant.ofRequest (Variant.cookieRequest [a])
    mayStore large.status large.headers = true ∧ c.Drops large body ∧
      ((c.store large body 1 draws).lookup v 2).hit = (c.lookup v 2).hit ∧
      (c.lookup v 2).hit.map (·.body) = some [1, 2, 3] := by
  intro draws a kept large c body v
  have hstored : mayStore large.status large.headers = true := by decide +kernel
  have hdrops : c.Drops large body := by decide +kernel
  obtain ⟨-, -, hiff⟩ := lookup_store_of_drops hstored hdrops 1 draws
  refine ⟨hstored, hdrops, (hiff (Variant.cookieRequest [a]) 2).mpr (.inr ?_), by decide +kernel⟩
  have hsame : varyNames large.headers = c.index.names large.baseKey := by decide +kernel
  rw [hsame]

/-- The dropped response declares another name, and the one of the other user is found no more. -/
theorem lookup_lost_of_drops_other_names :
    let draws : Draws := fun _ _ => 0
    let a := HeaderValue.ofLatin1 "user=a" (by decide)
    let kept := userExchange a (.ofLatin1 "Cookie" (by decide))
    let large := userExchange (.ofLatin1 "user=b" (by decide))
      (.ofLatin1 "Accept-Encoding" (by decide))
    let c := smallItems.store kept [1, 2, 3] 0 draws
    let body := List.replicate 200 7
    let v := Variant.ofRequest (Variant.cookieRequest [a])
    mayStore large.status large.headers = true ∧ body.length ≤ c.maxBody ∧ c.Drops large body ∧
      (c.lookup v 2).hit.map (·.body) = some [1, 2, 3] ∧
      ((c.store large body 1 draws).lookup v 2).hit = none := by
  decide +kernel

end ResponseCache

end Gateway.Cache
