import Gateway.Proofs.Cache.Lookup

/-! How often each outcome of a request was counted. Only the count of an outcome itself changes
these figures: what the store counts of itself are other figures. -/
namespace Gateway

namespace Metrics

theorem value_add (m : Metrics) (k j : Metric) (n : Nat) :
    (m.add k n).value j = if j = k then some ((m.value k).getD 0 + n) else m.value j := by
  unfold add
  cases hold : m.value k with
  | none =>
    by_cases hj : j = k
    · simp [value, hj]
    · simp [value, hj, List.lookup_cons, beq_eq_false_iff_ne.mpr hj]
  | some old =>
    by_cases hj : j = k
    · simp [value, hj]
    · simp [value, hj, List.lookup_cons, beq_eq_false_iff_ne.mpr hj, Cache.lookup_filter_ne]

theorem value_record (m : Metrics) (k j : Metric) (n : Nat) :
    (m.record k n).value j = if j = k then some n else m.value j := by
  unfold record
  by_cases hj : j = k
  · simp [value, hj]
  · simp [value, hj, List.lookup_cons, beq_eq_false_iff_ne.mpr hj, Cache.lookup_filter_ne]

end Metrics

namespace Cache

/-- The figures that the store keeps of itself. -/
def Metered.isOwn : Metric → Bool
  | .cacheEvictions | .cacheEntries | .cacheBytes => true
  | _ => false

namespace Metered

theorem value_recordSize (s : Store) (m : Metrics) {figure : Metric} (h : isOwn figure = false) :
    (recordSize s m).value figure = m.value figure := by
  have hentries : figure ≠ .cacheEntries := fun heq => by simp [heq, isOwn] at h
  have hbytes : figure ≠ .cacheBytes := fun heq => by simp [heq, isOwn] at h
  simp [recordSize, Metrics.value_record, hentries, hbytes]

theorem value_get (c : Metered) (k : Key) (now : Time) {figure : Metric}
    (h : isOwn figure = false) :
    (c.get k now).2.metrics.value figure = c.metrics.value figure := by
  unfold get
  obtain ⟨found, store⟩ := c.store.get k now
  cases found with
  | absent => rfl
  | live value => rfl
  | expired => exact value_recordSize store c.metrics h

theorem value_set (c : Metered) (k : Key) (value : Bytes) (expires now : Time) (draws : Draws)
    {figure : Metric} (h : isOwn figure = false) :
    (c.set k value expires now draws).metrics.value figure = c.metrics.value figure := by
  have hevictions : figure ≠ .cacheEvictions := fun heq => by simp [heq, isOwn] at h
  unfold set
  obtain ⟨written, store⟩ := c.store.set k value expires now draws
  cases written with
  | tooLarge => rfl
  | alreadyExpired => rfl
  | stored victims =>
    dsimp only
    rw [value_recordSize _ _ h]
    split_ifs
    · rfl
    · simp [Metrics.value_add, hevictions]

end Metered

namespace ResponseCache

def outcomes (c : ResponseCache) (o : CacheOutcome) : Nat :=
  (c.backend.metrics.value (.cacheRequests o)).getD 0

theorem outcomes_count (c : ResponseCache) (outcome o : CacheOutcome) :
    (c.count outcome).outcomes o = c.outcomes o + if o = outcome then 1 else 0 := by
  unfold count outcomes Metrics.count
  rw [Metrics.value_add]
  by_cases ho : o = outcome
  · simp [ho]
  · simp [ho]

theorem outcomes_reads (c : ResponseCache) (now : Time) (ks : List Key) (o : CacheOutcome) :
    (c.reads now ks).outcomes o = c.outcomes o := by
  induction ks generalizing c with
  | nil => rfl
  | cons k ks ih =>
    refine (ih (c.fetch k now).2).trans ?_
    have hown : Metered.isOwn (.cacheRequests o) = false := rfl
    exact congrArg (·.getD 0) (c.backend.value_get k now hown)

theorem Attempt.outcomes {c : ResponseCache} {tried : List Variant} {base : Key} {now : Time}
    {l : Lookup} (h : Attempt c tried base now l) (o : CacheOutcome) :
    l.cache.outcomes o = c.outcomes o := by
  cases h with
  | missed u hu => exact c.outcomes_reads now _ o
  | hit u r hu hheld haccepts => exact c.outcomes_reads now _ o

theorem outcomes_store (c : ResponseCache) (e : Exchange) (body : Bytes) (now : Time)
    (draws : Draws) (o : CacheOutcome) : (c.store e body now draws).outcomes o = c.outcomes o := by
  unfold store
  cases lifetime? e.status e.headers with
  | none => rfl
  | some seconds =>
    dsimp only [ResponseCache.outcomes]
    rw [Metrics.count, Metrics.value_add, if_neg (by simp), Metered.value_set _ _ _ _ _ _ rfl]

theorem outcomes_settle (c : ResponseCache) (capture : Capture) (e : Exchange) (now : Time)
    (draws : Draws) (o : CacheOutcome) :
    (c.settle capture e now draws).outcomes o = c.outcomes o := by
  unfold settle
  cases capture.captured with
  | none => rfl
  | some body => exact c.outcomes_store e body now draws o

end ResponseCache

end Cache

end Gateway
