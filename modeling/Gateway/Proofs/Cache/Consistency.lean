import Gateway.Proofs.Cache.Items
import Mathlib.Algebra.GroupWithZero.Nat

/-! The parts of the store agree: slots, entries and the running size describe one table, and the
bounds are kept. Each operation keeps this, so an eviction always finds a victim while it needs
one. -/
namespace Gateway.Cache.Store

def totalLength (t : List (Key × Entry)) : Nat := (t.map fun p => p.2.value.length).sum

/-- Slots, entries and size describe the same table, within the bounds. -/
structure Consistent (s : Store) : Prop where
  keys_nodup : (s.table.map Prod.fst).Nodup
  slots_nodup : s.slots.Nodup
  mem_slots : ∀ k, k ∈ s.slots ↔ (s.item? k).isSome
  slot_eq : ∀ i k, s.slots[i]? = some k → ∃ e, s.find? k = some e ∧ e.slot = i
  size_eq : s.size = totalLength s.table
  size_le : s.size ≤ s.capacity
  item_le : ∀ k i, s.item? k = some i → i.value.length ≤ s.maxItemSize

theorem consistent_empty (capacity maxItemSize : Nat) : (empty capacity maxItemSize).Consistent where
  keys_nodup := by simp [empty]
  slots_nodup := by simp [empty]
  mem_slots k := by simp [empty, item?, find?]
  slot_eq i k h := by simp [empty] at h
  size_eq := rfl
  size_le := Nat.zero_le _
  item_le k i h := by simp [empty, item?, find?] at h

section Tables
variable {t : List (Key × Entry)} {k : Key}

theorem perm_cons_filter (ht : (t.map Prod.fst).Nodup) {e : Entry} (h : t.lookup k = some e) :
    ((k, e) :: t.filter (·.1 != k)).Perm t := by
  induction t with
  | nil => simp at h
  | cons p rest ih =>
    simp only [List.map_cons, List.nodup_cons] at ht
    by_cases hp : p.1 = k
    · have hself : rest.filter (·.1 != k) = rest := by
        refine List.filter_eq_self.mpr fun q hq => ?_
        have : q.1 ≠ k := fun he => ht.1 (hp ▸ he ▸ List.mem_map_of_mem hq)
        simpa using this
      have hpe : p = (k, e) := by
        rw [List.lookup_cons] at h
        simp only [hp, BEq.rfl] at h
        exact Prod.ext hp (Option.some.inj h)
      rw [List.filter_cons, hself, hpe]
      simp
    · have hrest : rest.lookup k = some e := by
        have : (k == p.1) = false := beq_eq_false_iff_ne.mpr (Ne.symm hp)
        rwa [List.lookup_cons, this] at h
      have hkeep : (p :: rest).filter (·.1 != k) = p :: rest.filter (·.1 != k) := by simp [hp]
      rw [hkeep]
      exact (List.Perm.swap p (k, e) _).trans ((ih ht.2 hrest).cons p)

/-- A change of one entry that keeps its value's length. -/
theorem totalLength_map_at (g : Entry → Entry)
    (hg : ∀ e, (g e).value.length = e.value.length) :
    totalLength (t.map fun (j, e) => if j = k then (j, g e) else (j, e)) = totalLength t := by
  unfold totalLength
  rw [List.map_map]
  congr 1
  refine List.map_congr_left fun p _ => ?_
  dsimp only [Function.comp]
  split_ifs
  · exact hg p.2
  · rfl

theorem keys_map_at (g : Entry → Entry) :
    (t.map fun (j, e) => if j = k then (j, g e) else (j, e)).map Prod.fst = t.map Prod.fst := by
  rw [List.map_map]
  refine List.map_congr_left fun p _ => ?_
  dsimp only [Function.comp]
  split_ifs <;> rfl

end Tables

/-! ### Removing an entry -/

@[simp] theorem capacity_erase (s : Store) (k : Key) : (s.erase k).capacity = s.capacity := by
  unfold erase
  split <;> rfl

@[simp] theorem maxItemSize_erase (s : Store) (k : Key) :
    (s.erase k).maxItemSize = s.maxItemSize := by
  unfold erase
  split <;> rfl

@[simp] theorem capacity_foldl_erase (s : Store) (ks : List Key) :
    (ks.foldl erase s).capacity = s.capacity := by
  induction ks generalizing s with
  | nil => rfl
  | cons k rest ih => rw [List.foldl_cons, ih, capacity_erase]

@[simp] theorem maxItemSize_foldl_erase (s : Store) (ks : List Key) :
    (ks.foldl erase s).maxItemSize = s.maxItemSize := by
  induction ks generalizing s with
  | nil => rfl
  | cons k rest ih => rw [List.foldl_cons, ih, maxItemSize_erase]

section Erase
variable {s : Store} {k : Key} {e : Entry}

theorem slots_erase (h : s.find? k = some e) :
    (s.erase k).slots = swapRemove s.slots e.slot := by
  simp [erase, h]

theorem size_erase (h : s.find? k = some e) : (s.erase k).size = s.size - e.value.length := by
  simp [erase, h]

theorem keys_erase (h : s.find? k = some e) :
    (s.erase k).table.map Prod.fst = (s.table.filter (·.1 != k)).map Prod.fst := by
  unfold erase
  rw [h]
  dsimp only
  cases (swapRemove s.slots e.slot)[e.slot]? with
  | none => rfl
  | some moved => exact keys_map_at fun f => { f with slot := e.slot }

theorem totalLength_erase (hs : s.Consistent) (h : s.find? k = some e) :
    e.value.length + totalLength (s.erase k).table = totalLength s.table := by
  have hsame : totalLength (s.erase k).table = totalLength (s.table.filter (·.1 != k)) := by
    unfold erase
    rw [h]
    dsimp only
    cases (swapRemove s.slots e.slot)[e.slot]? with
    | none => rfl
    | some moved => exact totalLength_map_at (fun f => { f with slot := e.slot }) fun _ => rfl
  rw [hsame]
  have hperm := (perm_cons_filter hs.keys_nodup h).map fun p => p.2.value.length
  simpa [totalLength] using hperm.sum_nat

namespace Consistent

theorem slot (hs : s.Consistent) (h : s.find? k = some e) : s.slots[e.slot]? = some k := by
  have hk : k ∈ s.slots := (hs.mem_slots k).mpr (by simp [item?, h])
  obtain ⟨i, hi⟩ := List.mem_iff_getElem?.mp hk
  obtain ⟨f, hf, hslot⟩ := hs.slot_eq i k hi
  have hef : e = f := Option.some.inj (h.symm.trans hf)
  rw [hef, hslot, hi]

theorem length_le_size (hs : s.Consistent) (h : s.find? k = some e) : e.value.length ≤ s.size := by
  have := totalLength_erase hs h
  rw [hs.size_eq]
  omega

theorem erase (hs : s.Consistent) (k : Key) : (s.erase k).Consistent := by
  cases h : s.find? k with
  | none => rwa [erase_of_none h]
  | some e =>
    have hperm := swapRemove_perm (hs.slot h)
    obtain ⟨hk, hnodup⟩ := List.nodup_cons.mp (hperm.nodup_iff.mpr hs.slots_nodup)
    have hmem : ∀ m, m ∈ swapRemove s.slots e.slot ↔ m ≠ k ∧ m ∈ s.slots := by
      intro m
      rw [← hperm.mem_iff, List.mem_cons]
      constructor
      · intro hm
        exact ⟨fun he => hk (he ▸ hm), .inr hm⟩
      · rintro ⟨hne, hm⟩
        exact hm.resolve_left hne
    have htotal := totalLength_erase hs h
    have hsize := hs.size_eq
    have hle := hs.size_le
    exact {
      keys_nodup := by
        rw [keys_erase h]
        exact hs.keys_nodup.sublist (List.filter_sublist.map _)
      slots_nodup := by rwa [slots_erase h]
      mem_slots := by
        intro m
        rw [slots_erase h, hmem, item?_erase, hs.mem_slots]
        by_cases hm : m = k <;> simp [hm]
      slot_eq := by
        intro j m hj
        rw [slots_erase h] at hj
        obtain ⟨hne, hm⟩ := (hmem m).mp (List.mem_of_getElem? hj)
        rw [find?_erase h, if_neg hne]
        by_cases hje : j = e.slot
        · subst hje
          obtain ⟨i, hi⟩ := List.mem_iff_getElem?.mp hm
          obtain ⟨f, hf, -⟩ := hs.slot_eq i m hi
          exact ⟨{ f with slot := e.slot }, by simp [hf, hj], rfl⟩
        · obtain ⟨f, hf, hslot⟩ := hs.slot_eq j m (getElem?_swapRemove hje hj)
          have hmoved : (swapRemove s.slots e.slot)[e.slot]? ≠ some m := by
            intro hc
            have hlt := (List.getElem?_eq_some_iff.mp hj).1
            exact hje ((List.getElem?_inj hlt hnodup).mp (hj.trans hc.symm))
          exact ⟨f, by simp [hf, hmoved], hslot⟩
      size_eq := by
        rw [size_erase h]
        omega
      size_le := by
        rw [size_erase h, capacity_erase]
        omega
      item_le := by
        intro m i hi
        rw [item?_erase] at hi
        split_ifs at hi
        rw [maxItemSize_erase]
        exact hs.item_le m i hi }

theorem foldl_erase (hs : s.Consistent) (ks : List Key) : (ks.foldl Store.erase s).Consistent := by
  induction ks generalizing s with
  | nil => exact hs
  | cons k rest ih => exact ih (hs.erase k)

end Consistent

end Erase

/-! ### Choosing a victim -/

section Candidates
variable {s : Store} {now : Time}

theorem candidate?_mem {ks : List Key} {oldest : Option (Key × Time)} {k : Key}
    (h : s.candidate? now oldest ks = some k) : k ∈ ks ∨ ∃ t, oldest = some (k, t) := by
  induction ks generalizing oldest with
  | nil =>
    obtain ⟨p, hp, rfl⟩ := Option.map_eq_some_iff.mp h
    exact .inr ⟨p.2, hp⟩
  | cons j rest ih =>
    -- Whatever the candidate so far was, the rest of the sample is scanned with it or with `j`.
    have hkeep (h : s.candidate? now oldest rest = some k) :
        k ∈ j :: rest ∨ ∃ t, oldest = some (k, t) :=
      (ih h).imp (List.mem_cons_of_mem j) id
    have htake {t : Time} (h : s.candidate? now (some (j, t)) rest = some k) :
        k ∈ j :: rest ∨ ∃ t, oldest = some (k, t) := by
      rcases ih h with hm | ⟨_, he⟩
      · exact .inl (List.mem_cons_of_mem j hm)
      · have : j = k := by simpa using congrArg (Option.map Prod.fst) he
        exact .inl (this ▸ List.mem_cons_self)
    unfold candidate? at h
    cases he : s.find? j with
    | none => exact hkeep (by simpa [he] using h)
    | some e =>
      simp only [he] at h
      split_ifs at h with hexpired
      · exact .inl (Option.some.inj h ▸ List.mem_cons_self)
      · cases oldest with
        | none => exact htake h
        | some p =>
          dsimp only at h
          split_ifs at h
          · exact hkeep h
          · exact htake h

theorem exists_candidate? {ks : List Key} {oldest : Option (Key × Time)}
    (h : oldest.isSome ∨ ∃ k ∈ ks, (s.item? k).isSome) :
    ∃ k, s.candidate? now oldest ks = some k := by
  induction ks generalizing oldest with
  | nil =>
    obtain ⟨p, hp⟩ := Option.isSome_iff_exists.mp (h.resolve_right (by simp))
    exact ⟨p.1, by simp [candidate?, hp]⟩
  | cons j rest ih =>
    unfold candidate?
    cases he : s.find? j with
    | none =>
      refine ih (h.imp_right ?_)
      rintro ⟨k, hk, hsome⟩
      have hne : k ≠ j := by
        rintro rfl
        simp [item?, he] at hsome
      exact ⟨k, (List.mem_cons.mp hk).resolve_left hne, hsome⟩
    | some e =>
      dsimp only
      split_ifs
      · exact ⟨j, rfl⟩
      · cases oldest with
        | none => exact ih (.inl rfl)
        | some p =>
          dsimp only
          split_ifs
          · exact ih (.inl rfl)
          · exact ih (.inl rfl)

theorem mem_slots_of_mem_sample {draw : Nat → Nat} {k : Key} (h : k ∈ s.sample draw) :
    k ∈ s.slots := by
  unfold sample at h
  split_ifs at h
  · exact h
  · obtain ⟨i, -, hi⟩ := List.mem_filterMap.mp h
    exact List.mem_of_getElem? hi

theorem exists_mem_sample (h : s.slots ≠ []) (draw : Nat → Nat) : ∃ k, k ∈ s.sample draw := by
  unfold sample
  split_ifs
  · exact List.exists_mem_of_ne_nil _ h
  · have hpos := List.length_pos_iff.mpr h
    have hlt : draw 0 % s.slots.length < s.slots.length := Nat.mod_lt _ hpos
    refine ⟨s.slots[draw 0 % s.slots.length], List.mem_filterMap.mpr ⟨0, ?_, ?_⟩⟩
    · simp [sampleSize]
    · exact List.getElem?_eq_getElem hlt

theorem mem_slots_of_victim? {draw : Nat → Nat} {k : Key} (h : s.victim? now draw = some k) :
    k ∈ s.slots := by
  rcases candidate?_mem h with hk | ⟨t, ht⟩
  · exact mem_slots_of_mem_sample hk
  · simp at ht

theorem Consistent.exists_victim? (hs : s.Consistent) (h : s.slots ≠ []) (draw : Nat → Nat) :
    ∃ k, s.victim? now draw = some k := by
  obtain ⟨k, hk⟩ := exists_mem_sample h draw
  have hsome := (hs.mem_slots k).mp (mem_slots_of_mem_sample hk)
  exact exists_candidate? (.inr ⟨k, hk, hsome⟩)

end Candidates

namespace Consistent
variable {s : Store}

/-- Without slots there is nothing to measure. -/
theorem size_of_slots_nil (hs : s.Consistent) (h : s.slots = []) : s.size = 0 := by
  have htable : s.table = [] := by
    refine List.eq_nil_iff_forall_not_mem.mpr fun p hp => ?_
    have hk : p.1 ∈ s.slots := by
      rw [hs.mem_slots]
      simp [item?, find?, lookup_of_mem hs.keys_nodup hp]
    simp [h] at hk
  rw [hs.size_eq, htable]
  rfl

theorem length_slots_erase (hs : s.Consistent) {k : Key} (hk : k ∈ s.slots) :
    (s.erase k).slots.length + 1 = s.slots.length := by
  obtain ⟨i, hi⟩ := Option.isSome_iff_exists.mp ((hs.mem_slots k).mp hk)
  obtain ⟨e, he, -⟩ := Option.map_eq_some_iff.mp hi
  rw [slots_erase he, ← (swapRemove_perm (hs.slot he)).length_eq, List.length_cons]

theorem evict (hs : s.Consistent) (need : Nat) (now : Time) (draws : Draws) (fuel : Nat) :
    (Store.evict need now draws fuel s).2.Consistent := by
  rw [evict_snd]
  exact hs.foldl_erase _

/-- With a step for each slot the loop ends because the value fits: a victim is there as long as it
does not. -/
theorem evict_fits (hs : s.Consistent) {need : Nat} (hneed : need ≤ s.capacity) (now : Time)
    (draws : Draws) {fuel : Nat} (hfuel : s.slots.length ≤ fuel) :
    (Store.evict need now draws fuel s).2.size + need ≤ s.capacity := by
  induction fuel generalizing s with
  | zero =>
    have hnil : s.slots = [] := List.eq_nil_of_length_eq_zero (by omega)
    have hzero := hs.size_of_slots_nil hnil
    change s.size + need ≤ s.capacity
    omega
  | succ fuel ih =>
    by_cases hfits : s.size + need ≤ s.capacity
    · rw [evict_of_fits hfits]
      exact hfits
    · have hne : s.slots ≠ [] := by
        intro hnil
        have := hs.size_of_slots_nil hnil
        omega
      obtain ⟨k, hk⟩ : ∃ k, s.victim? now (draws fuel) = some k :=
        hs.exists_victim? hne (draws fuel)
      have hlen := hs.length_slots_erase (mem_slots_of_victim? hk)
      rw [evict_of_victim (by omega) hk]
      have := ih (hs.erase k) (by rwa [capacity_erase]) (by omega)
      rwa [capacity_erase] at this

theorem add (hs : s.Consistent) {k : Key} (hk : s.item? k = none) {value : Bytes}
    (hitem : value.length ≤ s.maxItemSize) (hfits : s.size + value.length ≤ s.capacity)
    (expires now : Time) : (s.add k value expires now).Consistent := by
  have hfree : k ∉ s.slots := by simp [hs.mem_slots, hk]
  have hlast : ∀ i m, (s.slots ++ [k])[i]? = some m →
      s.slots[i]? = some m ∨ i = s.slots.length ∧ m = k := by
    intro i m hi
    rcases Nat.lt_trichotomy i s.slots.length with hlt | heq | hgt
    · rw [List.getElem?_append_left hlt] at hi
      exact .inl hi
    · subst heq
      simp only [List.getElem?_concat_length, Option.some.injEq] at hi
      exact .inr ⟨rfl, hi.symm⟩
    · rw [List.getElem?_eq_none (by simp; omega)] at hi
      cases hi
  exact {
    keys_nodup := by
      refine List.nodup_cons.mpr ⟨?_, hs.keys_nodup⟩
      rw [mem_keys_iff]
      rintro ⟨e, he⟩
      have : s.find? k = none := item?_eq_none.mp hk
      exact absurd (this.symm.trans he) (by simp)
    slots_nodup := by
      refine List.nodup_append.mpr ⟨hs.slots_nodup, by simp, ?_⟩
      intro m hm j hj hmj
      rw [List.mem_singleton.mp hj] at hmj
      exact hfree (hmj ▸ hm)
    mem_slots := by
      intro m
      rw [item?_add]
      by_cases hm : m = k
      · simp [Store.add, hm]
      · simp [Store.add, hm, hs.mem_slots]
    slot_eq := by
      intro i m hi
      change ∃ e, ((k, _) :: s.table).lookup m = some e ∧ e.slot = i
      rw [List.lookup_cons]
      rcases hlast i m hi with hold | ⟨rfl, rfl⟩
      · have hne : m ≠ k := fun he => hfree (he ▸ List.mem_of_getElem? hold)
        have : (m == k) = false := beq_eq_false_iff_ne.mpr hne
        rw [this]
        exact hs.slot_eq i m hold
      · exact ⟨⟨value, expires, now, s.slots.length⟩, by simp, rfl⟩
    size_eq := by
      have := hs.size_eq
      simp only [Store.add, totalLength, List.map_cons, List.sum_cons] at this ⊢
      omega
    size_le := hfits
    item_le := by
      intro m i hi
      rw [item?_add] at hi
      split_ifs at hi
      · rw [← Option.some.inj hi]
        exact hitem
      · exact hs.item_le m i hi }

theorem touch (hs : s.Consistent) (k : Key) (now : Time) :
    { s with table := Store.touch k now s.table }.Consistent := by
  have hentry : ∀ m, find? { s with table := Store.touch k now s.table } m =
      (s.find? m).map fun e => if m = k then { e with lastAccess := now } else e :=
    fun m => lookup_touch k m now s.table
  exact {
    keys_nodup := by
      have : (Store.touch k now s.table).map Prod.fst = s.table.map Prod.fst :=
        keys_map_at fun e => { e with lastAccess := now }
      rw [this]
      exact hs.keys_nodup
    slots_nodup := hs.slots_nodup
    mem_slots := by
      intro m
      rw [hs.mem_slots, item?, item?, hentry]
      simp
    slot_eq := by
      intro i m hi
      obtain ⟨e, he, hslot⟩ := hs.slot_eq i m hi
      refine ⟨if m = k then { e with lastAccess := now } else e, ?_, ?_⟩
      · rw [hentry, he]
        rfl
      · split_ifs
        · exact hslot
        · exact hslot
    size_eq := by
      rw [hs.size_eq]
      exact (totalLength_map_at (fun e => { e with lastAccess := now }) fun _ => rfl).symm
    size_le := hs.size_le
    item_le := by
      intro m i hi
      rw [item?, hentry, Option.map_map] at hi
      obtain ⟨e, he, rfl⟩ := Option.map_eq_some_iff.mp hi
      have := hs.item_le m e.item (by simp [item?, he])
      dsimp only [Function.comp]
      split_ifs
      · exact this
      · exact this }

/-! ### The three calls -/

theorem get (hs : s.Consistent) (k : Key) (now : Time) : (s.get k now).2.Consistent := by
  unfold Store.get
  cases s.find? k with
  | none => exact hs
  | some e =>
    dsimp only
    split_ifs
    · exact hs.touch k now
    · exact hs.erase k

theorem purge (hs : s.Consistent) (now : Time) : (s.purge now).2.Consistent :=
  hs.foldl_erase (s.expiredKeys now)

theorem set (hs : s.Consistent) (k : Key) (value : Bytes) (expires now : Time) (draws : Draws) :
    (s.set k value expires now draws).2.Consistent := by
  by_cases hacc : s.Accepts value expires now
  · rw [set_of_accepts hacc]
    obtain ⟨hitem, hcap, -⟩ := hacc
    have hfree := hs.erase k
    refine (hfree.evict value.length now draws _).add ?_ ?_ ?_ expires now
    · rw [item?_evict, item?_erase]
      simp
    · simpa [evict_snd] using hitem
    · have := hfree.evict_fits (by simpa using hcap) now draws (Nat.le_refl _)
      simpa [evict_snd] using this
  · rcases set_of_not_accepts hacc k draws with h | h
    · rwa [h]
    · rwa [h]

end Consistent

end Gateway.Cache.Store
