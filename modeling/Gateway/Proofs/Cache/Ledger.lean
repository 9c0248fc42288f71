import Gateway.Proofs.Cache.Evictions
import Gateway.Proofs.Cache.Expiry

/-! Where entries go. What a write puts in stays until it is replaced, evicted, found expired by a
read or swept, and the exported figures tell the same. -/
namespace Gateway.Cache

/-- The entries that calls put in, and those that they took out by the way they went. -/
structure Ledger where
  /-- The writes that were accepted. -/
  accepted : Nat := 0
  /-- The entries that an accepted write of their own key found. -/
  replaced : Nat := 0
  evicted : Nat := 0
  /-- The entries that a read found expired. -/
  expired : Nat := 0
  /-- The entries that sweeps reported. -/
  swept : Nat := 0
  deriving DecidableEq

namespace Ledger

instance : Add Ledger where
  add l m := ⟨l.accepted + m.accepted, l.replaced + m.replaced, l.evicted + m.evicted,
    l.expired + m.expired, l.swept + m.swept⟩

def gone (l : Ledger) : Nat := l.replaced + l.evicted + l.expired + l.swept

variable (l m : Ledger)

@[simp] theorem accepted_add : (l + m).accepted = l.accepted + m.accepted := rfl

@[simp] theorem evicted_add : (l + m).evicted = l.evicted + m.evicted := rfl

theorem gone_add : (l + m).gone = l.gone + m.gone := by
  change l.replaced + m.replaced + (l.evicted + m.evicted) + (l.expired + m.expired) +
    (l.swept + m.swept) = _
  unfold gone
  omega

end Ledger

namespace Store

/-- The number of entries under a key, one or none. -/
def held (s : Store) (k : Key) : Nat := if (s.item? k).isSome then 1 else 0

/-- The number of entries under a key that have expired. -/
def stale (s : Store) (k : Key) (now : Time) : Nat :=
  if ((s.item? k).filter (·.expires ≤ now)).isSome then 1 else 0

section Lengths
variable {s : Store} (hs : s.Consistent)
include hs

theorem length_erase_add (k : Key) : (s.erase k).length + s.held k = s.length := by
  unfold held
  split_ifs with hk
  · exact length_erase hs ((hs.mem_slots k).mpr hk)
  · have hnone : s.find? k = none := item?_eq_none.mp (Option.not_isSome_iff_eq_none.mp hk)
    rw [erase_of_none hnone]
    omega

theorem length_foldl_erase {ks : List Key} (hnodup : ks.Nodup)
    (hheld : ∀ k ∈ ks, (s.item? k).isSome) : (ks.foldl erase s).length + ks.length = s.length := by
  induction ks generalizing s with
  | nil => rfl
  | cons k rest ih =>
    obtain ⟨hk, hrest⟩ := List.nodup_cons.mp hnodup
    have hlater : ∀ j ∈ rest, ((s.erase k).item? j).isSome := by
      intro j hj
      have hne : j ≠ k := fun heq => hk (heq ▸ hj)
      rw [item?_erase, if_neg hne]
      exact hheld j (List.mem_cons_of_mem k hj)
    have hfirst : (s.erase k).length + 1 = s.length :=
      length_erase hs ((hs.mem_slots k).mpr (hheld k List.mem_cons_self))
    have hlength := ih (hs.erase k) hrest hlater
    rw [List.foldl_cons, List.length_cons]
    omega

/-- An accepted write adds one entry and takes out the old one of its key and those it evicts. -/
theorem length_set {value : Bytes} {expires now : Time} (h : s.Accepts value expires now) (k : Key)
    (draws : Draws) :
    (s.set k value expires now draws).2.length + s.held k +
      (s.evicted k value now draws).length = s.length + 1 := by
  have hbare : (s.erase k).Consistent := hs.erase k
  have hcap : value.length ≤ (s.erase k).capacity := by
    rw [capacity_erase]
    exact h.2.1
  have hloop := hbare.evicts now hcap draws (Nat.le_refl _)
  obtain ⟨hnodup, hheld⟩ := hloop.held hbare
  have herase := length_erase_add hs k
  have hevict := length_foldl_erase hbare hnodup hheld
  rw [← hloop.eq_foldl] at hevict
  have hadd : (s.set k value expires now draws).2.length =
      (evict value.length now draws (s.erase k).slots.length (s.erase k)).2.length + 1 := by
    rw [set_of_accepts h]
    rfl
  unfold evicted
  omega

theorem length_get (k : Key) (now : Time) :
    (s.get k now).2.length + s.stale k now = s.length := by
  unfold get stale
  cases hk : s.find? k with
  | none => simp [item?, hk]
  | some e =>
    by_cases hlive : now < e.expires
    · have hfresh : ¬ e.expires ≤ now := Nat.not_le.mpr hlive
      simp [item?, hk, hlive, Entry.item, Option.filter, hfresh, length, touch]
    · have hstale : e.expires ≤ now := Nat.not_lt.mp hlive
      have hmem : k ∈ s.slots := (hs.mem_slots k).mpr (by simp [item?, hk])
      have herase := length_erase hs hmem
      simpa [item?, hk, hlive, Entry.item, Option.filter, hstale] using herase

/-- A sweep reports what it takes out. -/
theorem length_purge (now : Time) : (s.purge now).2.length + (s.purge now).1 = s.length := by
  have hnodup : (s.expiredKeys now).Nodup :=
    hs.keys_nodup.sublist (List.filter_sublist.map Prod.fst)
  refine length_foldl_erase hs hnodup fun k hk => ?_
  obtain ⟨i, hi, -⟩ := (mem_expiredKeys hs).mp hk
  rw [hi]
  rfl

end Lengths

end Store

namespace Metered

def booked (c : Metered) : Call → Ledger
  | .set k value expires now draws =>
    if c.store.Accepts value expires now then
      { accepted := 1, replaced := c.store.held k,
        evicted := (c.victims (.set k value expires now draws)).length }
    else {}
  | .get k now => { expired := c.store.stale k now }
  | .purge now => { swept := (c.purge now).1 }

/-- What the calls of a run do to the entries, all together. -/
def ledger (c : Metered) : List Call → Ledger
  | [] => {}
  | call :: rest => c.booked call + (c.perform call).ledger rest

theorem booked_of_accepts {c : Metered} {value : Bytes} {expires now : Time}
    (h : c.store.Accepts value expires now) (k : Key) (draws : Draws) :
    c.booked (.set k value expires now draws) =
      { accepted := 1, replaced := c.store.held k,
        evicted := (c.store.evicted k value now draws).length } := by
  rw [booked, if_pos h, victims_of_accepts h]

theorem booked_of_not_accepts {c : Metered} {value : Bytes} {expires now : Time}
    (h : ¬ c.store.Accepts value expires now) (k : Key) (draws : Draws) :
    c.booked (.set k value expires now draws) = {} := by
  rw [booked, if_neg h]

theorem length_perform {c : Metered} (hc : c.store.Consistent) (call : Call) :
    (c.perform call).store.length + (c.booked call).gone =
      c.store.length + (c.booked call).accepted := by
  cases call with
  | set k value expires now draws =>
    by_cases hacc : c.store.Accepts value expires now
    · have hlength := Store.length_set hc hacc k draws
      rw [booked_of_accepts hacc, perform, store_set]
      simp only [Ledger.gone]
      omega
    · rw [booked_of_not_accepts hacc, perform, set_of_not_accepts hacc]
      rfl
  | get k now =>
    have hlength := Store.length_get hc k now
    rw [perform, store_get]
    simp only [booked, Ledger.gone]
    omega
  | purge now =>
    have hlength := Store.length_purge hc now
    have hreported : (c.purge now).1 = (c.store.purge now).1 := rfl
    rw [perform, store_purge]
    simp only [booked, Ledger.gone, hreported]
    omega

theorem length_run {c : Metered} (hc : c.store.Consistent) (calls : List Call) :
    (c.run calls).store.length + (c.ledger calls).gone =
      c.store.length + (c.ledger calls).accepted := by
  induction calls generalizing c with
  | nil => rfl
  | cons call rest ih =>
    have hstep := length_perform hc call
    have hrest := ih (consistent_perform hc call)
    change ((c.perform call).run rest).store.length + _ = _
    rw [ledger, Ledger.gone_add, Ledger.accepted_add]
    omega

/-! ### The figures -/

theorem evictions_recordSize (s t : Store) (m : Metrics) :
    evictions ⟨s, recordSize t m⟩ = (m.value .cacheEvictions).getD 0 := by
  simp [evictions, recordSize, Metrics.value_record]

theorem evictions_perform (c : Metered) (call : Call) :
    (c.perform call).evictions = c.evictions + (c.booked call).evicted := by
  cases call with
  | set k value expires now draws =>
    by_cases hacc : c.store.Accepts value expires now
    · rw [booked_of_accepts hacc]
      exact evictions_of_set hacc k draws
    · rw [booked_of_not_accepts hacc, perform, set_of_not_accepts hacc]
      rfl
  | get k now =>
    rw [perform, get]
    obtain ⟨found, store⟩ := c.store.get k now
    cases found with
    | absent => rfl
    | live value => rfl
    | expired => exact evictions_recordSize store store c.metrics
  | purge now => exact evictions_recordSize _ _ c.metrics

theorem evictions_run (c : Metered) (calls : List Call) :
    (c.run calls).evictions = c.evictions + (c.ledger calls).evicted := by
  induction calls generalizing c with
  | nil => rfl
  | cons call rest ih =>
    have hstep := c.evictions_perform call
    have hrest := ih (c.perform call)
    change ((c.perform call).run rest).evictions = _
    rw [ledger, Ledger.evicted_add]
    omega

def Shows (c : Metered) : Prop :=
  c.metrics.value .cacheEntries = some c.store.length ∧
    c.metrics.value .cacheBytes = some c.store.size

theorem shows_recordSize (s : Store) (m : Metrics) : Shows ⟨s, recordSize s m⟩ := by
  simp [Shows, recordSize, Metrics.value_record]

theorem shows_purge (c : Metered) (now : Time) : (c.perform (.purge now)).Shows :=
  shows_recordSize _ _

theorem shows_set {c : Metered} {value : Bytes} {expires now : Time}
    (h : c.store.Accepts value expires now) (k : Key) (draws : Draws) :
    (c.perform (.set k value expires now draws)).Shows := by
  rw [perform, set, Store.set_of_accepts h]
  exact shows_recordSize _ _

/-- A read changes what the gauges show exactly when it changes what the store holds. -/
theorem shows_get {c : Metered} (h : c.Shows) (k : Key) (now : Time) :
    (c.perform (.get k now)).Shows := by
  rw [perform, get, Store.get]
  cases c.store.find? k with
  | none => exact h
  | some e =>
    dsimp only
    split_ifs with hlive
    · have hlength : (Store.touch k now c.store.table).length = c.store.table.length := by
        simp [Store.touch]
      refine ⟨?_, h.2⟩
      change c.metrics.value .cacheEntries = some (Store.touch k now c.store.table).length
      rw [hlength]
      exact h.1
    · exact shows_recordSize _ _

theorem shows_perform {c : Metered} (h : c.Shows) (call : Call) : (c.perform call).Shows := by
  cases call with
  | set k value expires now draws =>
    by_cases hacc : c.store.Accepts value expires now
    · exact shows_set hacc k draws
    · rw [perform, set_of_not_accepts hacc]
      exact h
  | get k now => exact shows_get h k now
  | purge now => exact shows_purge c now

theorem shows_run {c : Metered} (h : c.Shows) (calls : List Call) : (c.run calls).Shows := by
  induction calls generalizing c with
  | nil => exact h
  | cons call rest ih => exact ih (shows_perform h call)

/-- The first accepted write or sweep sets the gauges. -/
theorem shows_of_accepted {c : Metered} {calls : List Call}
    (h : 0 < (c.ledger calls).accepted ∨ ∃ now, .purge now ∈ calls) : (c.run calls).Shows := by
  induction calls generalizing c with
  | nil => simp [ledger] at h
  | cons call rest ih =>
    change ((c.perform call).run rest).Shows
    cases call with
    | set k value expires now draws =>
      by_cases hacc : c.store.Accepts value expires now
      · exact shows_run (shows_set hacc k draws) rest
      · apply ih
        simpa [ledger, booked_of_not_accepts hacc] using h
    | get k now =>
      apply ih
      simpa [ledger, booked] using h
    | purge now => exact shows_run (shows_purge c now) rest

/-- Without an accepted write or a sweep nothing happens to a store that is empty. -/
theorem run_fresh_of_idle {capacity maxItemSize : Nat} {metrics : Metrics} {calls : List Call}
    (haccepted : ((fresh capacity maxItemSize metrics).ledger calls).accepted = 0)
    (hswept : ∀ now, .purge now ∉ calls) :
    (fresh capacity maxItemSize metrics).run calls = fresh capacity maxItemSize metrics := by
  induction calls with
  | nil => rfl
  | cons call rest ih =>
    rw [ledger, Ledger.accepted_add, Nat.add_eq_zero_iff] at haccepted
    have hfirst : (fresh capacity maxItemSize metrics).perform call =
        fresh capacity maxItemSize metrics := by
      cases call with
      | set k value expires now draws =>
        by_cases hacc : (fresh capacity maxItemSize metrics).store.Accepts value expires now
        · rw [booked_of_accepts hacc] at haccepted
          cases haccepted.1
        · exact set_of_not_accepts hacc k draws
      | get k now => rfl
      | purge now => exact absurd List.mem_cons_self (hswept now)
    rw [hfirst] at haccepted
    change ((fresh capacity maxItemSize metrics).perform call).run rest = _
    rw [hfirst]
    exact ih haccepted.2 fun now hmem => hswept now (List.mem_cons_of_mem call hmem)

/-- After any calls the entries put in are those that are there and those that were replaced,
evicted, found expired by reads and reported by sweeps. The evicted ones are counted, and from the
first accepted write or sweep on the gauges show what the store holds; before that nothing has
happened. -/
theorem run_accounts_for_entries (capacity maxItemSize : Nat) (metrics : Metrics)
    (calls : List Call) :
    let c := fresh capacity maxItemSize metrics
    let d := c.run calls
    let l := c.ledger calls
    l.accepted = d.store.length + l.replaced + l.evicted + l.expired + l.swept ∧
      d.evictions = c.evictions + l.evicted ∧
      ((0 < l.accepted ∨ ∃ now, .purge now ∈ calls) → d.Shows) ∧
      (l.accepted = 0 → (∀ now, .purge now ∉ calls) → d = c) := by
  intro c d l
  refine ⟨?_, c.evictions_run calls, shows_of_accepted, run_fresh_of_idle⟩
  have hlength := length_run (consistent_fresh capacity maxItemSize metrics) calls
  have hempty : c.store.length = 0 := rfl
  have hgone : l.gone = l.replaced + l.evicted + l.expired + l.swept := rfl
  change d.store.length + l.gone = c.store.length + l.accepted at hlength
  omega

/-- Five entries go in. One is replaced, one evicted, one found expired, one swept and one left; the
write that is too long does not count. -/
theorem run_accounts_for_entries_each_way :
    let c := fresh 6 6 []
    let draws : Draws := fun _ _ => 0
    let calls := [Call.set 1 [7, 7] 10 0 draws, .set 2 [5] 30 1 draws, .set 1 [8, 8] 12 2 draws,
      .set 3 [6, 6, 6, 6] 9 3 draws, .get 1 12, .purge 20, .set 4 [1] 30 21 draws,
      .set 4 [1, 1, 1, 1, 1, 1, 1] 30 22 draws]
    c.ledger calls = ⟨5, 1, 1, 1, 1⟩ ∧ (c.run calls).store.length = 1 ∧
      (c.run calls).evictions = 1 ∧ (c.run calls).Shows := by
  intro c draws calls
  have hledger : c.ledger calls = ⟨5, 1, 1, 1, 1⟩ := by decide +kernel
  obtain ⟨hlength, hevictions, hshows, -⟩ := run_accounts_for_entries 6 6 [] calls
  change (c.ledger calls).accepted = (c.run calls).store.length + _ + _ + _ + _ at hlength
  change (c.run calls).evictions = 0 + (c.ledger calls).evicted at hevictions
  change 0 < (c.ledger calls).accepted ∨ _ → (c.run calls).Shows at hshows
  rw [hledger] at hlength hevictions hshows
  dsimp only at hlength
  exact ⟨hledger, by omega, hevictions, hshows (.inl (by decide))⟩

end Metered

end Gateway.Cache
