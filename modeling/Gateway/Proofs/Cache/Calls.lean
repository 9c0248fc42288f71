import Gateway.Proofs.Cache.Consistency

/-! Runs of calls on a store that starts empty. Whatever the keys, values, times and draws, the
bookkeeping of the store reached is exact. -/
namespace Gateway.Cache

/-- A call of the store with the time it is made at, and for a write the draws of its evictions. -/
inductive Call where
  | set (k : Key) (value : Bytes) (expires now : Time) (draws : Draws)
  | get (k : Key) (now : Time)
  | purge (now : Time)

def Call.time : Call → Time
  | set _ _ _ now _ => now
  | get _ now => now
  | purge now => now

namespace Metered

def fresh (capacity maxItemSize : Nat) (metrics : Metrics) : Metered :=
  ⟨.empty capacity maxItemSize, metrics⟩

def perform (c : Metered) : Call → Metered
  | .set k value expires now draws => c.set k value expires now draws
  | .get k now => (c.get k now).2
  | .purge now => (c.purge now).2

def run (c : Metered) (calls : List Call) : Metered := calls.foldl perform c

/-! ### The store behind the figures -/

theorem store_set (c : Metered) (k : Key) (value : Bytes) (expires now : Time) (draws : Draws) :
    (c.set k value expires now draws).store = (c.store.set k value expires now draws).2 := by
  unfold set
  obtain ⟨written, store⟩ := c.store.set k value expires now draws
  cases written <;> rfl

theorem store_get (c : Metered) (k : Key) (now : Time) :
    (c.get k now).2.store = (c.store.get k now).2 := by
  unfold get
  obtain ⟨found, store⟩ := c.store.get k now
  cases found <;> rfl

theorem store_purge (c : Metered) (now : Time) :
    (c.purge now).2.store = (c.store.purge now).2 := rfl

/-- A read answers what the store holds at its time. -/
theorem get_fst (c : Metered) (k : Key) (now : Time) : (c.get k now).1 = c.store.get? k now := by
  rw [← c.store.value?_get]
  unfold get
  obtain ⟨found, store⟩ := c.store.get k now
  cases found <;> rfl

theorem limits_perform (c : Metered) (call : Call) :
    (c.perform call).store.capacity = c.store.capacity ∧
      (c.perform call).store.maxItemSize = c.store.maxItemSize := by
  cases call with
  | set k value expires now draws =>
    simp only [perform, store_set]
    by_cases h : c.store.Accepts value expires now
    · rw [Store.set_of_accepts h, Store.evict_snd]
      simp [Store.add]
    · rcases Store.set_of_not_accepts h k draws with hset | hset
      · rw [hset]
        exact ⟨rfl, rfl⟩
      · rw [hset]
        exact ⟨rfl, rfl⟩
  | get k now =>
    simp only [perform, store_get]
    unfold Store.get
    cases c.store.find? k with
    | none => exact ⟨rfl, rfl⟩
    | some e =>
      dsimp only
      split_ifs
      · exact ⟨rfl, rfl⟩
      · simp
  | purge now => simp [perform, store_purge, Store.purge]

theorem limits_run (c : Metered) (calls : List Call) :
    (c.run calls).store.capacity = c.store.capacity ∧
      (c.run calls).store.maxItemSize = c.store.maxItemSize := by
  induction calls generalizing c with
  | nil => exact ⟨rfl, rfl⟩
  | cons call rest ih =>
    have hstep := c.limits_perform call
    have hrest := ih (c.perform call)
    exact ⟨hrest.1.trans hstep.1, hrest.2.trans hstep.2⟩

theorem consistent_perform {c : Metered} (h : c.store.Consistent) (call : Call) :
    (c.perform call).store.Consistent := by
  cases call with
  | set k value expires now draws =>
    rw [perform, store_set]
    exact h.set k value expires now draws
  | get k now =>
    rw [perform, store_get]
    exact h.get k now
  | purge now => exact h.purge now

theorem consistent_run {c : Metered} (h : c.store.Consistent) (calls : List Call) :
    (c.run calls).store.Consistent := by
  induction calls generalizing c with
  | nil => exact h
  | cons call rest ih => exact ih (consistent_perform h call)

theorem consistent_fresh (capacity maxItemSize : Nat) (metrics : Metrics) :
    (fresh capacity maxItemSize metrics).store.Consistent :=
  Store.consistent_empty capacity maxItemSize

/-- After any calls the slots list the keys of the table, each once and at the position that its
entry names; the size is the sum of the values' lengths, within the bounds. A call removes entries
one after another, and none of them is ever longer than the size it is taken from. -/
theorem run_bookkeeping (capacity maxItemSize : Nat) (metrics : Metrics) (calls : List Call) :
    let s := ((fresh capacity maxItemSize metrics).run calls).store
    s.slots.Nodup ∧ (s.table.map Prod.fst).Nodup ∧
      (∀ k, k ∈ s.slots ↔ k ∈ s.table.map Prod.fst) ∧
      (∀ i k, s.slots[i]? = some k → ∃ e, s.find? k = some e ∧ e.slot = i) ∧
      s.size = (s.table.map fun p => p.2.value.length).sum ∧
      (∀ (removed : List Key) k e, (removed.foldl Store.erase s).find? k = some e →
        e.value.length ≤ (removed.foldl Store.erase s).size) ∧
      s.size ≤ capacity ∧ ∀ p ∈ s.table, p.2.value.length ≤ maxItemSize := by
  intro s
  have hs : s.Consistent := consistent_run (consistent_fresh capacity maxItemSize metrics) calls
  obtain ⟨hcap, hmax⟩ := limits_run (fresh capacity maxItemSize metrics) calls
  refine ⟨hs.slots_nodup, hs.keys_nodup, ?_, hs.slot_eq, hs.size_eq, ?_, ?_, ?_⟩
  · intro k
    rw [hs.mem_slots, mem_keys_iff, ← Option.isSome_iff_exists, Store.item?, Option.isSome_map]
    rfl
  · intro removed k e he
    exact (hs.foldl_erase removed).length_le_size he
  · exact Nat.le_trans hs.size_le (Nat.le_of_eq hcap)
  · intro p hp
    have hentry : s.find? p.1 = some p.2 := lookup_of_mem hs.keys_nodup hp
    have := hs.item_le p.1 p.2.item (by simp [Store.item?, hentry])
    exact Nat.le_trans this (Nat.le_of_eq hmax)

end Metered

end Gateway.Cache
