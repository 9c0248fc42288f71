import Gateway.Proofs.Cache.Ledger
import Mathlib.Algebra.BigOperators.Group.List.Lemmas
import Mathlib.Algebra.Order.BigOperators.Group.Finset

/-! Sweeping early or late. A sweep takes out what no later reader would find, and it can only make
room: as long as the store does without evictions, nobody can tell whether it was swept. -/
namespace Gateway.Cache

namespace Store

theorem lengthOf_of_mem {s : Store} (hs : s.Consistent) {p : Key × Entry} (hp : p ∈ s.table) :
    s.lengthOf p.1 = p.2.value.length := by
  have hentry : s.find? p.1 = some p.2 := lookup_of_mem hs.keys_nodup hp
  simp [lengthOf, item?, hentry, Entry.item]

/-- The size is what the values of all keys take, each counted once. -/
theorem size_eq_sum {s : Store} (hs : s.Consistent) :
    s.size = ∑ k ∈ s.slots.toFinset, s.lengthOf k := by
  have hkeys : (s.table.map Prod.fst).toFinset = s.slots.toFinset := by
    ext k
    rw [List.mem_toFinset, List.mem_toFinset, hs.mem_slots, mem_keys_iff, item?, Option.isSome_map,
      ← Option.isSome_iff_exists]
    rfl
  rw [hs.size_eq, ← hkeys, List.sum_toFinset _ hs.keys_nodup, List.map_map, totalLength]
  refine congrArg List.sum (List.map_congr_left fun p hp => ?_)
  exact (lengthOf_of_mem hs hp).symm

def Within (s t : Store) : Prop := ∀ k i, s.item? k = some i → t.item? k = some i

theorem Within.erase {s t : Store} (h : s.Within t) (k : Key) : (s.erase k).Within (t.erase k) := by
  intro m i hi
  rw [item?_erase] at hi ⊢
  split_ifs at hi ⊢
  exact h m i hi

theorem Within.size_le {s t : Store} (h : s.Within t) (hs : s.Consistent) (ht : t.Consistent) :
    s.size ≤ t.size := by
  have hslots : s.slots.toFinset ⊆ t.slots.toFinset := by
    intro k hk
    rw [List.mem_toFinset, hs.mem_slots] at hk
    rw [List.mem_toFinset, ht.mem_slots]
    obtain ⟨i, hi⟩ := Option.isSome_iff_exists.mp hk
    rw [h k i hi]
    rfl
  have hlengths : ∀ k ∈ s.slots.toFinset, s.lengthOf k = t.lengthOf k := by
    intro k hk
    rw [List.mem_toFinset, hs.mem_slots] at hk
    obtain ⟨i, hi⟩ := Option.isSome_iff_exists.mp hk
    rw [lengthOf, lengthOf, hi, h k i hi]
  calc s.size = ∑ k ∈ s.slots.toFinset, s.lengthOf k := size_eq_sum hs
    _ = ∑ k ∈ s.slots.toFinset, t.lengthOf k := Finset.sum_congr rfl hlengths
    _ ≤ ∑ k ∈ t.slots.toFinset, t.lengthOf k := Finset.sum_le_sum_of_subset hslots
    _ = t.size := (size_eq_sum ht).symm

/-- A write evicts nothing exactly when its value fits besides the others. -/
theorem evicted_eq_nil_iff {s : Store} (hs : s.Consistent) {value : Bytes} {expires now : Time}
    (h : s.Accepts value expires now) (k : Key) (draws : Draws) :
    s.evicted k value now draws = [] ↔ (s.erase k).size + value.length ≤ s.capacity := by
  have hcap : value.length ≤ (s.erase k).capacity := by
    rw [capacity_erase]
    exact h.2.1
  have hloop := (hs.erase k).evicts now hcap draws (Nat.le_refl _)
  rw [← capacity_erase s k]
  exact hloop.eq_nil_iff

/-- One store is the other without some entries that have expired by now. -/
structure Swept (now : Time) (s t : Store) : Prop where
  capacity_eq : s.capacity = t.capacity
  maxItemSize_eq : s.maxItemSize = t.maxItemSize
  item : ∀ k, s.item? k = t.item? k ∨ s.item? k = none ∧ ∃ i, t.item? k = some i ∧ i.expires ≤ now

namespace Swept
variable {now u : Time} {s t : Store}

theorem mono (h : Swept now s t) (hle : now ≤ u) : Swept u s t where
  capacity_eq := h.capacity_eq
  maxItemSize_eq := h.maxItemSize_eq
  item k := (h.item k).imp_right fun ⟨hnone, i, hi, hexpired⟩ => ⟨hnone, i, hi, hexpired.trans hle⟩

theorem within (h : Swept now s t) : s.Within t := by
  intro k i hi
  rcases h.item k with hsame | ⟨hnone, -⟩
  · exact hsame ▸ hi
  · rw [hnone] at hi
    cases hi

/-- What is still alive is the same in both. -/
theorem filter_item? (h : Swept now s t) (k : Key) :
    (s.item? k).filter (now < ·.expires) = (t.item? k).filter (now < ·.expires) := by
  rcases h.item k with hsame | ⟨hnone, i, hi, hexpired⟩
  · rw [hsame]
  · have hdead : ¬ now < i.expires := Nat.not_lt.mpr hexpired
    simp [hnone, hi, Option.filter, hdead]

theorem get?_eq (h : Swept now s t) (k : Key) : s.get? k now = t.get? k now := by
  rw [get?_eq_item?, get?_eq_item?, h.filter_item?]

theorem accepts_iff (h : Swept now s t) (value : Bytes) (expires u : Time) :
    s.Accepts value expires u ↔ t.Accepts value expires u := by
  unfold Accepts
  rw [h.capacity_eq, h.maxItemSize_eq]

theorem fits (h : Swept now s t) (hs : s.Consistent) (ht : t.Consistent) {value : Bytes}
    {expires u : Time} (hacc : t.Accepts value expires u) {k : Key} {draws : Draws}
    (hfits : t.evicted k value u draws = []) : s.evicted k value u draws = [] := by
  rw [evicted_eq_nil_iff ht hacc] at hfits
  rw [evicted_eq_nil_iff hs ((h.accepts_iff value expires u).mpr hacc), h.capacity_eq]
  have hsize := (h.within.erase k).size_le (hs.erase k) (ht.erase k)
  omega

end Swept

/-- A sweep makes such a store. -/
theorem swept_purge {s : Store} (hs : s.Consistent) (now : Time) : Swept now (s.purge now).2 s where
  capacity_eq := capacity_foldl_erase s _
  maxItemSize_eq := maxItemSize_foldl_erase s _
  item k := by
    rw [item?_purge hs]
    cases hi : s.item? k with
    | none => exact .inl rfl
    | some i =>
      by_cases hlive : now < i.expires
      · exact .inl (by simp [Option.filter, hlive])
      · exact .inr ⟨by simp [Option.filter, hlive], i, rfl, Nat.not_lt.mp hlive⟩

end Store

namespace Metered

def answers (c : Metered) : List Call → List (Option Bytes)
  | [] => []
  | .get k now :: rest => (c.get k now).1 :: (c.perform (.get k now)).answers rest
  | call :: rest => (c.perform call).answers rest

def Spacious (c : Metered) : List Call → Prop
  | [] => True
  | call :: rest => c.victims call = [] ∧ (c.perform call).Spacious rest

/-- As long as the fuller store does without evictions, so does the other, and whatever is called of
both leaves one to be the other without some expired entries. -/
theorem swept_perform {now : Time} {c d : Metered} (h : Store.Swept now d.store c.store)
    (hc : c.store.Consistent) (hd : d.store.Consistent) {call : Call} (htime : now ≤ call.time)
    (hroom : c.victims call = []) :
    Store.Swept call.time (d.perform call).store (c.perform call).store ∧ d.victims call = [] := by
  have hlater := h.mono htime
  have hcapacity : (d.perform call).store.capacity = (c.perform call).store.capacity := by
    rw [(d.limits_perform call).1, (c.limits_perform call).1, h.capacity_eq]
  have hmaxItemSize : (d.perform call).store.maxItemSize = (c.perform call).store.maxItemSize := by
    rw [(d.limits_perform call).2, (c.limits_perform call).2, h.maxItemSize_eq]
  cases call with
  | get k u =>
    refine ⟨⟨hcapacity, hmaxItemSize, fun m => ?_⟩, rfl⟩
    rw [perform, perform, store_get, store_get, Store.item?_get, Store.item?_get]
    split_ifs
    · exact .inl (congrArg _ (hlater.filter_item? k))
    · exact hlater.item m
  | purge u =>
    refine ⟨⟨hcapacity, hmaxItemSize, fun m => .inl ?_⟩, rfl⟩
    rw [perform, perform, store_purge, store_purge, Store.item?_purge hd, Store.item?_purge hc]
    exact hlater.filter_item? m
  | set k value expires u draws =>
    by_cases hacc : c.store.Accepts value expires u
    · have hacc' := (h.accepts_iff value expires u).mpr hacc
      rw [victims_of_accepts hacc] at hroom
      have hroom' := h.fits hd hc hacc hroom
      have hnone := (victims_of_accepts hacc' k draws).trans hroom'
      refine ⟨⟨hcapacity, hmaxItemSize, fun m => ?_⟩, hnone⟩
      rw [perform, perform, store_set, store_set, Store.item?_set hacc, Store.item?_set hacc',
        hroom, hroom']
      by_cases hm : m = k
      · simp [hm]
      · simpa [hm] using hlater.item m
    · have hacc' := (h.accepts_iff value expires u).not.mpr hacc
      rw [perform, perform, set_of_not_accepts hacc, set_of_not_accepts hacc']
      exact ⟨hlater, victims_of_not_accepts hacc' k draws⟩

theorem answers_of_swept {now : Time} {c d : Metered} (h : Store.Swept now d.store c.store)
    (hc : c.store.Consistent) (hd : d.store.Consistent) {calls : List Call}
    (htimes : (now :: calls.map Call.time).Pairwise (· ≤ ·)) (hroom : c.Spacious calls) :
    d.answers calls = c.answers calls ∧ d.Spacious calls := by
  induction calls generalizing now c d with
  | nil => exact ⟨rfl, trivial⟩
  | cons call rest ih =>
    obtain ⟨hfirst, hrest⟩ := List.pairwise_cons.mp htimes
    have htime : now ≤ call.time := hfirst call.time List.mem_cons_self
    obtain ⟨hswept, hroomy⟩ := swept_perform h hc hd htime hroom.1
    obtain ⟨hanswers, hspacious⟩ :=
      ih hswept (consistent_perform hc call) (consistent_perform hd call) hrest hroom.2
    refine ⟨?_, hroomy, hspacious⟩
    cases call with
    | get k u =>
      have hanswer : (d.get k u).1 = (c.get k u).1 := by
        rw [get_fst, get_fst]
        exact (h.mono htime).get?_eq k
      rw [answers, answers, hanswer, hanswers]
    | set k value expires u draws => exact hanswers
    | purge u => exact hanswers

/-- A sweep takes out the entries that have expired and no others, which stay as they are, and tells
their number. Later calls that evict nothing without it evict nothing after it either, and all
reads among them answer the same. -/
theorem sweep_unseen (capacity maxItemSize : Nat) (metrics : Metrics) (before : List Call)
    (now : Time) :
    let c := (fresh capacity maxItemSize metrics).run before
    let swept := (c.purge now).2
    (∀ k, swept.store.item? k = (c.store.item? k).filter (now < ·.expires)) ∧
      (c.purge now).1 = c.store.table.countP (·.2.expires ≤ now) ∧
      swept.store.length + (c.purge now).1 = c.store.length ∧
      ∀ later, (now :: later.map Call.time).Pairwise (· ≤ ·) → c.Spacious later →
        swept.answers later = c.answers later ∧ swept.Spacious later := by
  intro c swept
  have hfresh := consistent_fresh capacity maxItemSize metrics
  have hc : c.store.Consistent := consistent_run hfresh before
  have hcount : (c.purge now).1 = c.store.table.countP (·.2.expires ≤ now) := by
    rw [List.countP_eq_length_filter]
    exact List.length_map Prod.fst
  refine ⟨Store.item?_purge hc now, hcount, Store.length_purge hc now, ?_⟩
  intro later htimes hroom
  exact answers_of_swept (Store.swept_purge hc now) hc (hc.purge now) htimes hroom

/-- Two of three entries are swept, and the third moves to another slot. Written into the store that
is nearly full before the sweep, a fourth one and it are read as they are without the sweep. -/
theorem sweep_unseen_of_two_expired :
    let draws : Draws := fun _ _ => 0
    let c := (fresh 6 6 []).run
      [.set 1 [7, 7] 5 0 draws, .set 3 [6, 6] 4 1 draws, .set 2 [5] 30 2 draws]
    let later := [Call.get 1 5, .set 4 [9] 20 6 draws, .get 2 7, .purge 8, .get 3 8, .get 4 9]
    (c.purge 5).1 = 2 ∧ (5 :: later.map Call.time).Pairwise (· ≤ ·) ∧ c.Spacious later ∧
      (c.purge 5).2.answers later = [none, some [5], none, some [9]] := by
  intro draws c later
  obtain ⟨-, hcount, -, hunseen⟩ := sweep_unseen 6 6 []
    [.set 1 [7, 7] 5 0 draws, .set 3 [6, 6] 4 1 draws, .set 2 [5] 30 2 draws] 5
  change (c.purge 5).1 = c.store.table.countP (·.2.expires ≤ 5) at hcount
  change ∀ later, _ → c.Spacious later →
    (c.purge 5).2.answers later = c.answers later ∧ _ at hunseen
  have htwo : c.store.table.countP (·.2.expires ≤ 5) = 2 := by decide +kernel
  have htimes : (5 :: later.map Call.time).Pairwise (· ≤ ·) := by decide
  have hroom : c.Spacious later := by
    refine ⟨?_, ?_, ?_, ?_, ?_, ?_, trivial⟩
    all_goals decide +kernel
  have hplain : c.answers later = [none, some [5], none, some [9]] := by decide +kernel
  exact ⟨hcount.trans htwo, htimes, hroom, (hunseen later htimes hroom).1.trans hplain⟩

end Metered

end Gateway.Cache
