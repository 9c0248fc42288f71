import Gateway.Proofs.Cache.Lookup
import Gateway.Proofs.Cache.VaryNames

/-! What a lookup answers with, told from what the cache holds and from the names that the index has
for the base key. -/
namespace Gateway.Cache

open Gateway.Http

def Lookup.answer? (l : Lookup) : Option (Variant × Stored) := l.hit.map (l.variant, ·)

theorem Lookup.map_answer? (l : Lookup) : l.answer?.map Prod.snd = l.hit := by
  unfold answer?
  cases l.hit <;> rfl

namespace ResponseCache

/-- What an attempt answers with that starts under a key: the response held there names the variant,
which must accept what is held under its own key. -/
def answer? (c : ResponseCache) (v : Variant) (k : Key) (now : Time) : Option (Variant × Stored) :=
  (c.held? k now).bind fun first =>
    let u := v.withNames (varyNames first.headers)
    ((c.held? u.key now).filter (u.accepts ·.recorded)).map (u, ·)

/-- What a lookup answers with that assumes these names: what it finds under the key with the names,
else what it finds under the base key. -/
def found? (c : ResponseCache) (v : Variant) (names : List HeaderName) (now : Time) :
    Option (Variant × Stored) :=
  (c.answer? v (v.withNames names).key now).or (c.answer? v v.key now)

theorem answer?_eq_some_iff {c : ResponseCache} {v u : Variant} {k : Key} {now : Time}
    {r : Stored} : c.answer? v k now = some (u, r) ↔
      ∃ first, c.held? k now = some first ∧ u = v.withNames (varyNames first.headers) ∧
        c.held? u.key now = some r ∧ u.accepts r.recorded = true := by
  unfold answer?
  rw [Option.bind_eq_some_iff]
  refine exists_congr fun first => and_congr_right fun _ => ?_
  simp only [Option.map_eq_some_iff, Option.filter_eq_some_iff, Prod.mk.injEq]
  constructor
  · rintro ⟨r, hfound, rfl, rfl⟩
    exact ⟨rfl, hfound⟩
  · rintro ⟨rfl, hfound⟩
    exact ⟨r, hfound, rfl, rfl⟩

/-- Caches that answer the same reads answer the same lookups, whatever their indexes say. -/
theorem ReadsAs.answer?_eq {now : Time} {c d : ResponseCache} (h : ReadsAs now c d) (v : Variant)
    (k : Key) : c.answer? v k now = d.answer? v k now := by
  unfold answer?
  simp only [h.held?_eq]

theorem ReadsAs.found?_eq {now : Time} {c d : ResponseCache} (h : ReadsAs now c d) (v : Variant)
    (names : List HeaderName) : c.found? v names now = d.found? v names now := by
  unfold found?
  rw [h.answer?_eq, h.answer?_eq]

theorem answer?_confirm (c : ResponseCache) (v : Variant) (base : Key) (names : List HeaderName)
    (r : Stored) : (c.confirm v base names r).answer? =
      ((some r).filter (v.accepts ·.recorded)).map (v, ·) := by
  unfold confirm
  split_ifs with haccepts
  · simp [Lookup.answer?, Option.filter, haccepts]
  · simp [Lookup.answer?, Option.filter, haccepts]

theorem answer?_fetchVariant (c : ResponseCache) (v : Variant) (base : Key) (now : Time) :
    (c.fetchVariant v base v.key now).answer? = c.answer? v v.key now := by
  rw [fetchVariant_eq]
  unfold answer?
  cases hfirst : c.held? v.key now with
  | none => rfl
  | some first =>
    rw [Option.bind_some]
    dsimp only
    split_ifs with hnames
    · have hsame : v.withNames (varyNames first.headers) = v := by
        rw [hnames]
        rfl
      rw [answer?_confirm, hsame, hfirst]
    · generalize v.withNames (varyNames first.headers) = u
      cases c.held? u.key now with
      | none => rfl
      | some corrected => exact answer?_confirm _ u base u.names corrected

theorem assumed_eq (c : ResponseCache) {v : Variant} (hv : v.names = []) :
    c.assumed v = v.withNames (c.index.names v.key) := by
  unfold assumed VaryIndex.names
  cases c.index.known? v.key with
  | none =>
    unfold Variant.withNames
    exact (hv ▸ rfl : v = { v with names := [] })
  | some names => rfl

/-- A lookup answers with what is found when the names of the index are assumed. -/
theorem answer?_lookup (c : ResponseCache) {v : Variant} (hv : v.names = []) (now : Time) :
    (c.lookup v now).answer? = c.found? v (c.index.names v.key) now := by
  have hattempt := attempt_fetchVariant c (c.assumed v) v.key now
  have hanswer := answer?_fetchVariant c (c.assumed v) v.key now
  have hassumed := c.assumed_eq hv
  have hsame : c.answer? (c.assumed v) (c.assumed v).key now =
      c.answer? v (v.withNames (c.index.names v.key)).key now := by
    rw [hassumed]
    rfl
  rw [hsame] at hanswer
  rw [lookup_eq, found?, ← hanswer]
  dsimp only
  generalize c.fetchVariant (c.assumed v) v.key (c.assumed v).key now = first at *
  cases hhit : first.hit with
  | some r =>
    simp [Lookup.answer?, hhit]
  | none =>
    have hmissed : first.answer? = none := by rw [Lookup.answer?, hhit]; rfl
    rw [hmissed, Option.none_or]
    by_cases hbase : (c.assumed v).key = v.key
    · rw [hmissed, ← hassumed, hbase] at hanswer
      simp [hbase, hmissed, hanswer]
    · obtain ⟨hvariant, hreads⟩ := missed_first hv hattempt hhit
      have hsecond := answer?_fetchVariant first.cache v v.key now
      rw [hreads, (readsAs_reads c now _).answer?_eq, ← hreads] at hsecond
      simp [hbase, hvariant, hsecond]

theorem hit_lookup (c : ResponseCache) {v : Variant} (hv : v.names = []) (now : Time) :
    (c.lookup v now).hit = (c.found? v (c.index.names v.key) now).map Prod.snd := by
  rw [← c.answer?_lookup hv, Lookup.map_answer?]

end ResponseCache

end Gateway.Cache
