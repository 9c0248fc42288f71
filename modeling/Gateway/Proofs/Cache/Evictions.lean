import Gateway.Proofs.Cache.Calls
import Gateway.Proofs.Cache.Outcomes

/-! Making room for a value. The loop ends because the value fits, never for want of a victim; it
removes no entry that could have stayed, and it leaves the others as they are. -/
namespace Gateway.Cache

namespace Store

/-- The loop that makes room for `need` octets, from its first test to the one that ends it, with
the victims in the order in which they go. -/
inductive Evicts (need : Nat) (now : Time) : Store → List Key → Store → Prop
  | fits {s : Store} (h : s.size + need ≤ s.capacity) : Evicts need now s [] s
  | victim {s t : Store} {k : Key} {ks : List Key} (draw : Nat → Nat)
      (hneed : s.capacity < s.size + need) (hk : s.victim? now draw = some k)
      (hrest : Evicts need now (s.erase k) ks t) : Evicts need now s (k :: ks) t

section Turns
variable {s t : Store} {need : Nat} {now : Time} {k : Key} {ks : List Key}

theorem length_erase (hs : s.Consistent) (hk : k ∈ s.slots) :
    (s.erase k).length + 1 = s.length := by
  obtain ⟨i, hi⟩ := Option.isSome_iff_exists.mp ((hs.mem_slots k).mp hk)
  obtain ⟨e, he, -⟩ := Option.map_eq_some_iff.mp hi
  have hkeys := congrArg List.length (keys_erase he)
  have hperm := (perm_cons_filter hs.keys_nodup he).length_eq
  rw [List.length_map, List.length_map] at hkeys
  rw [List.length_cons] at hperm
  unfold length
  omega

variable (now) in
/-- While a value that the store could hold does not fit, every draw has a victim, and removing it
leaves one entry less. -/
theorem Consistent.turn (hs : s.Consistent) (hcap : need ≤ s.capacity)
    (hneed : s.capacity < s.size + need) (draw : Nat → Nat) :
    ∃ k ∈ s.slots, s.victim? now draw = some k ∧ (s.erase k).length + 1 = s.length := by
  have hne : s.slots ≠ [] := by
    intro hnil
    have hzero := hs.size_of_slots_nil hnil
    omega
  obtain ⟨k, hk⟩ : ∃ k, s.victim? now draw = some k := hs.exists_victim? hne draw
  have hmem := mem_slots_of_victim? hk
  exact ⟨k, hmem, hk, length_erase hs hmem⟩

variable (now) in
/-- With a turn for each slot the loop runs to its end. -/
theorem Consistent.evicts (hs : s.Consistent) (hcap : need ≤ s.capacity) (draws : Draws)
    {fuel : Nat} (hfuel : s.slots.length ≤ fuel) :
    Evicts need now s (Store.evict need now draws fuel s).1
      (Store.evict need now draws fuel s).2 := by
  induction fuel generalizing s with
  | zero =>
    have hnil : s.slots = [] := List.eq_nil_of_length_eq_zero (by omega)
    have hzero := hs.size_of_slots_nil hnil
    exact .fits (by omega)
  | succ fuel ih =>
    by_cases hfits : s.size + need ≤ s.capacity
    · rw [evict_of_fits hfits]
      exact .fits hfits
    · have hneed : s.capacity < s.size + need := by omega
      obtain ⟨k, hmem, hk, -⟩ := hs.turn now hcap hneed (draws fuel)
      have hslots := hs.length_slots_erase hmem
      have hrest : need ≤ (s.erase k).capacity := by rwa [capacity_erase]
      rw [evict_of_victim hneed hk]
      exact .victim (draws fuel) hneed hk (ih (hs.erase k) hrest (by omega))

namespace Evicts

/-- The loop removes its victims and does nothing else. -/
theorem eq_foldl (h : Evicts need now s ks t) : t = ks.foldl Store.erase s := by
  induction h with
  | fits => rfl
  | victim draw hneed hk hrest ih => exact ih

theorem size_le (h : Evicts need now s ks t) : t.size + need ≤ s.capacity := by
  induction h with
  | fits h => exact h
  | victim draw hneed hk hrest ih => rwa [capacity_erase] at ih

/-- Just before a victim goes the value does not fit yet, and the victim is one that is drawn. -/
theorem needed (h : Evicts need now s ks t) {before rest : List Key} {j : Key}
    (hks : ks = before ++ j :: rest) :
    s.capacity < (before.foldl Store.erase s).size + need ∧
      ∃ draw, (before.foldl Store.erase s).victim? now draw = some j := by
  induction h generalizing before with
  | fits h => simp at hks
  | victim draw hneed hk hrest ih =>
    cases before with
    | nil =>
      obtain ⟨rfl, -⟩ := List.cons.inj hks
      exact ⟨hneed, draw, hk⟩
    | cons first before =>
      obtain ⟨rfl, htail⟩ := List.cons.inj hks
      have hlater := ih htail
      rwa [capacity_erase] at hlater

theorem eq_nil_iff (h : Evicts need now s ks t) : ks = [] ↔ s.size + need ≤ s.capacity := by
  cases h with
  | fits h => exact iff_of_true rfl h
  | victim draw hneed hk hrest => exact iff_of_false nofun (Nat.not_le.mpr hneed)

/-- The victims are entries of the store, each removed once. -/
theorem held (h : Evicts need now s ks t) (hs : s.Consistent) :
    ks.Nodup ∧ ∀ k ∈ ks, (s.item? k).isSome := by
  induction h with
  | fits h => exact ⟨List.nodup_nil, nofun⟩
  | victim draw hneed hk hrest ih =>
    rename_i s t k ks
    obtain ⟨hnodup, hheld⟩ := ih (hs.erase k)
    have hfirst : (s.item? k).isSome := (hs.mem_slots k).mp (mem_slots_of_victim? hk)
    have hlater : ∀ j ∈ ks, j ≠ k ∧ (s.item? j).isSome := by
      intro j hj
      have hsome := hheld j hj
      rw [item?_erase] at hsome
      split_ifs at hsome with hjk
      · cases hsome
      · exact ⟨hjk, hsome⟩
    refine ⟨List.nodup_cons.mpr ⟨fun hmem => (hlater k hmem).1 rfl, hnodup⟩, ?_⟩
    intro j hj
    rcases List.mem_cons.mp hj with rfl | hj
    · exact hfirst
    · exact (hlater j hj).2

end Evicts

def lengthOf (s : Store) (k : Key) : Nat := ((s.item? k).map (·.value.length)).getD 0

theorem size_erase_add (hs : s.Consistent) (k : Key) :
    (s.erase k).size + s.lengthOf k = s.size := by
  cases he : s.find? k with
  | none =>
    have hnone : s.item? k = none := item?_eq_none.mpr he
    rw [erase_of_none he, lengthOf, hnone]
    rfl
  | some e =>
    have hlength : s.lengthOf k = e.value.length := by simp [lengthOf, item?, he, Entry.item]
    have hle := hs.length_le_size he
    rw [size_erase he, hlength]
    omega

end Turns

end Store

namespace Metered

def evictions (c : Metered) : Nat := (c.metrics.value .cacheEvictions).getD 0

theorem evictions_of_set {c : Metered} {value : Bytes} {expires now : Time}
    (h : c.store.Accepts value expires now) (k : Key) (draws : Draws) :
    (c.set k value expires now draws).evictions =
      c.evictions + (c.store.evicted k value now draws).length := by
  unfold set evictions
  rw [Store.set_of_accepts h]
  simp only [recordSize, Metrics.value_record, reduceCtorEq, if_false]
  cases c.store.evicted k value now draws with
  | nil => rfl
  | cons j victims => simp [Metrics.value_add]

/-- What a write that is accepted does to a store in use. The old entry of its key goes first and is
not counted. Then entries are evicted one by one, each while the value does not fit and while every
draw has a victim, until it fits: none when it fits without the old entry. The new entry is added,
and all others stay as they are. -/
theorem set_evicts_what_is_needed (capacity maxItemSize : Nat) (metrics : Metrics)
    (calls : List Call) (k : Key) (value : Bytes) (expires now : Time) (draws : Draws) :
    let c := (fresh capacity maxItemSize metrics).run calls
    let bare := c.store.erase k
    let after := c.set k value expires now draws
    c.store.Accepts value expires now → ∃ victims,
      Store.Evicts value.length now bare victims (victims.foldl Store.erase bare) ∧
      after.store = (victims.foldl Store.erase bare).add k value expires now ∧
      (∀ before j rest, victims = before ++ j :: rest →
        let t := before.foldl Store.erase bare
        capacity < t.size + value.length ∧ (∀ draw, ∃ i, t.victim? now draw = some i) ∧
          (t.erase j).length + 1 = t.length) ∧
      after.store.size ≤ capacity ∧
      bare.size + c.store.lengthOf k = c.store.size ∧
      (victims = [] ↔ bare.size + value.length ≤ capacity) ∧
      (victims.Nodup ∧ (∀ j ∈ victims, j ≠ k ∧ (c.store.item? j).isSome) ∧
        after.evictions = c.evictions + victims.length) ∧
      ∀ j, after.store.item? j =
        if j = k then some ⟨value, expires, now⟩
        else if j ∈ victims then none
        else c.store.item? j := by
  intro c bare after hacc
  have hs : c.store.Consistent := consistent_run (consistent_fresh capacity maxItemSize metrics) calls
  have hbare : bare.Consistent := hs.erase k
  have hlimit : bare.capacity = capacity := by
    rw [Store.capacity_erase]
    exact (limits_run (fresh capacity maxItemSize metrics) calls).1
  have hcap : value.length ≤ bare.capacity := by
    rw [Store.capacity_erase]
    exact hacc.2.1
  have hloop := hbare.evicts now hcap draws (Nat.le_refl _)
  have hresult := hloop.eq_foldl
  have hset : after.store = (Store.evict value.length now draws bare.slots.length bare).2.add k value
      expires now := by
    rw [store_set, Store.set_of_accepts hacc]
  have hheld := hloop.held hbare
  refine ⟨c.store.evicted k value now draws, ?_, ?_, ?_, ?_, ?_, ?_, ⟨hheld.1, ?_, ?_⟩, ?_⟩
  · have hsame := hloop
    rwa [hresult] at hsame
  · rw [hset, hresult]
    rfl
  · intro before j rest hvictims
    obtain ⟨hneed, draw, hj⟩ := hloop.needed hvictims
    have ht : (before.foldl Store.erase bare).Consistent := hbare.foldl_erase before
    have hsame : (before.foldl Store.erase bare).capacity = bare.capacity :=
      Store.capacity_foldl_erase bare before
    refine ⟨hlimit ▸ hneed, ?_, Store.length_erase ht (Store.mem_slots_of_victim? hj)⟩
    intro other
    obtain ⟨i, -, hi, -⟩ := ht.turn now (hsame ▸ hcap) (hsame ▸ hneed) other
    exact ⟨i, hi⟩
  · rw [hset, ← hlimit]
    exact hloop.size_le
  · exact Store.size_erase_add hs k
  · rw [← hlimit]
    exact hloop.eq_nil_iff
  · intro j hj
    have hsome := hheld.2 j hj
    rw [Store.item?_erase] at hsome
    split_ifs at hsome with hjk
    · cases hsome
    · exact ⟨hjk, hsome⟩
  · exact evictions_of_set hacc k draws
  · intro j
    have hitems := Store.item?_set hacc k j draws
    rwa [← store_set] at hitems

/-- The key that is written releases its own two octets, and an entry that has expired makes room for
the rest; the live entry stays. -/
theorem set_evicts_what_is_needed_of_replaced :
    let draws : Draws := fun _ _ => 0
    let c := (fresh 6 6 []).run
      [.set 1 [7, 7] 10 0 draws, .set 2 [5] 30 1 draws, .set 3 [6, 6] 5 2 draws]
    let bare := c.store.erase 1
    let after := c.set 1 [8, 8, 8, 8] 30 6 draws
    c.store.Accepts [8, 8, 8, 8] 30 6 ∧ bare.size + 2 = c.store.size ∧
      Store.Evicts 4 6 bare [3] (bare.erase 3) ∧ after.evictions = 1 ∧ after.store.size ≤ 6 ∧
      after.store.item? 1 = some ⟨[8, 8, 8, 8], 30, 6⟩ ∧
      after.store.item? 2 = c.store.item? 2 := by
  intro draws c bare after
  have hwrite := set_evicts_what_is_needed 6 6 []
    [.set 1 [7, 7] 10 0 draws, .set 2 [5] 30 1 draws, .set 3 [6, 6] 5 2 draws]
    1 [8, 8, 8, 8] 30 6 draws
  extract_lets at hwrite
  have hacc : c.store.Accepts [8, 8, 8, 8] 30 6 := by
    unfold Store.Accepts
    decide +kernel
  obtain ⟨victims, hloop, -, -, hsize, hreleased, -, ⟨-, -, hcounted⟩, hitems⟩ := hwrite hacc
  have hone : victims.length = 1 := by
    have hbefore : c.evictions = 0 := by decide +kernel
    have hafter : after.evictions = 1 := by decide +kernel
    rw [hbefore, hafter] at hcounted
    omega
  obtain ⟨j, rfl⟩ := List.length_eq_one_iff.mp hone
  have hj : j = 3 := by
    have hgone : after.store.item? 3 = none := by decide +kernel
    have hthere : c.store.item? 3 ≠ none := by decide +kernel
    have hthird := hitems 3
    rw [hgone, if_neg (by decide)] at hthird
    split_ifs at hthird with hmem
    · exact (List.mem_singleton.mp hmem).symm
    · exact absurd hthird.symm hthere
  have hold : c.store.lengthOf 1 = 2 := by decide +kernel
  rw [hold] at hreleased
  rw [hj] at hloop hitems
  rw [List.foldl_cons, List.foldl_nil] at hloop
  refine ⟨hacc, hreleased, hloop, by decide +kernel, hsize, (hitems 1).trans (if_pos rfl), ?_⟩
  exact (hitems 2).trans (by decide +kernel)

end Metered

end Gateway.Cache
