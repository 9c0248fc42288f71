import Gateway.Proofs.Cache.Expiry

/-! Which entry an eviction chooses. A sample is scanned with the best key so far in hand, which is
the one used least recently of those seen. The last use that an entry tells is that of the calls
before. -/
namespace Gateway.Cache

namespace Store

def lastAccess? (s : Store) (k : Key) : Option Time := (s.item? k).map (·.lastAccess)

def HasExpired (s : Store) (now : Time) (k : Key) : Prop :=
  ∃ i ∈ s.item? k, i.expires ≤ now

instance (s : Store) (now : Time) (k : Key) : Decidable (s.HasExpired now k) :=
  inferInstanceAs (Decidable (∃ i ∈ s.item? k, i.expires ≤ now))

/-- The first key of a list whose entry has expired. -/
def IsFirstExpired (s : Store) (now : Time) (ks : List Key) (k : Key) : Prop :=
  s.HasExpired now k ∧
    ∃ before after, ks = before ++ k :: after ∧ ∀ j ∈ before, ¬ s.HasExpired now j

/-- The key of a list whose entry was used least recently, and of several the first. -/
def IsLeastRecent (s : Store) (ks : List Key) (k : Key) : Prop :=
  ∃ t, s.lastAccess? k = some t ∧ ∃ before after, ks = before ++ k :: after ∧
    (∀ j ∈ before, ∀ u ∈ s.lastAccess? j, t < u) ∧ ∀ j ∈ after, ∀ u ∈ s.lastAccess? j, t ≤ u

section Scans
variable {s : Store} {now t u : Time} {j k : Key} {rest : List Key}

theorem isSome_lastAccess? : (s.lastAccess? k).isSome = (s.item? k).isSome := Option.isSome_map

/-- An entry that has not expired leaves the choice to the rest of the sample. -/
theorem candidate?_cons_of_fresh (hj : ¬ s.HasExpired now j) (oldest : Option (Key × Time))
    (rest : List Key) :
    ∃ best, s.candidate? now oldest (j :: rest) = s.candidate? now best rest := by
  rw [candidate?]
  cases he : s.find? j with
  | none => exact ⟨oldest, rfl⟩
  | some e =>
    have hlive : ¬ e.expires ≤ now := fun hle => hj ⟨e.item, by simp [item?, he], hle⟩
    dsimp only
    rw [if_neg hlive]
    split
    · split_ifs
      · exact ⟨_, rfl⟩
      · exact ⟨_, rfl⟩
    · exact ⟨_, rfl⟩

theorem candidate?_of_isFirstExpired {ks : List Key} (h : s.IsFirstExpired now ks k)
    (oldest : Option (Key × Time)) : s.candidate? now oldest ks = some k := by
  obtain ⟨⟨i, hi, hexpired⟩, before, after, rfl, hbefore⟩ := h
  induction before generalizing oldest with
  | nil =>
    obtain ⟨e, he, rfl⟩ := Option.map_eq_some_iff.mp hi
    rw [List.nil_append, candidate?, he]
    exact if_pos hexpired
  | cons j before ih =>
    obtain ⟨best, hbest⟩ := candidate?_cons_of_fresh (hbefore j List.mem_cons_self) oldest
      (before ++ k :: after)
    rw [List.cons_append, hbest]
    exact ih best fun m hm => hbefore m (List.mem_cons_of_mem j hm)

/-! ### The best key so far -/

theorem exists_entry (hj : ¬ s.HasExpired now j) (hu : s.lastAccess? j = some u) :
    ∃ e, s.find? j = some e ∧ e.lastAccess = u ∧ ¬ e.expires ≤ now := by
  obtain ⟨i, hi, rfl⟩ := Option.map_eq_some_iff.mp hu
  obtain ⟨e, he, rfl⟩ := Option.map_eq_some_iff.mp hi
  exact ⟨e, he, rfl, fun hle => hj ⟨e.item, hi, hle⟩⟩

theorem candidate?_first (hj : ¬ s.HasExpired now j) (hu : s.lastAccess? j = some u) :
    s.candidate? now none (j :: rest) = s.candidate? now (some (j, u)) rest := by
  obtain ⟨e, he, rfl, hlive⟩ := exists_entry hj hu
  rw [candidate?, he]
  exact if_neg hlive

theorem candidate?_keep (hj : ¬ s.HasExpired now j) (hu : s.lastAccess? j = some u) (h : t ≤ u) :
    s.candidate? now (some (k, t)) (j :: rest) = s.candidate? now (some (k, t)) rest := by
  obtain ⟨e, he, rfl, hlive⟩ := exists_entry hj hu
  rw [candidate?, he]
  dsimp only
  rw [if_neg hlive, if_pos h]

theorem candidate?_replace (hj : ¬ s.HasExpired now j) (hu : s.lastAccess? j = some u)
    (h : u < t) :
    s.candidate? now (some (k, t)) (j :: rest) = s.candidate? now (some (j, u)) rest := by
  obtain ⟨e, he, rfl, hlive⟩ := exists_entry hj hu
  rw [candidate?, he]
  dsimp only
  rw [if_neg hlive, if_neg (Nat.not_le.mpr h)]

namespace IsLeastRecent
variable {seen : List Key}

theorem mem (h : s.IsLeastRecent seen k) : k ∈ seen := by
  obtain ⟨t, -, before, after, rfl, -⟩ := h
  exact List.mem_append_right before List.mem_cons_self

theorem le (h : s.IsLeastRecent seen k) (ht : s.lastAccess? k = some t) (hj : j ∈ seen)
    (hu : s.lastAccess? j = some u) : t ≤ u := by
  obtain ⟨t', ht', before, after, rfl, hbefore, hafter⟩ := h
  obtain rfl := Option.some.inj (ht.symm.trans ht')
  rcases List.mem_append.mp hj with hj | hj
  · exact Nat.le_of_lt (hbefore j hj u hu)
  · rcases List.mem_cons.mp hj with rfl | hj
    · exact Nat.le_of_eq (Option.some.inj (ht.symm.trans hu))
    · exact hafter j hj u hu

theorem singleton (hu : s.lastAccess? j = some u) : s.IsLeastRecent [j] j :=
  ⟨u, hu, [], [], rfl, nofun, nofun⟩

/-- A key that was not used before the best so far leaves it the best. -/
theorem concat_of_le (h : s.IsLeastRecent seen k) (ht : s.lastAccess? k = some t)
    (hu : s.lastAccess? j = some u) (htu : t ≤ u) : s.IsLeastRecent (seen ++ [j]) k := by
  obtain ⟨t', ht', before, after, rfl, hbefore, hafter⟩ := h
  obtain rfl := Option.some.inj (ht.symm.trans ht')
  refine ⟨t, ht, before, after ++ [j], by simp, hbefore, fun m hm v hv => ?_⟩
  rcases List.mem_append.mp hm with hm | hm
  · exact hafter m hm v hv
  · obtain rfl := List.mem_singleton.mp hm
    rwa [Option.some.inj (hv.symm.trans hu)]

/-- A key that was used before the best so far was used before all that were seen. -/
theorem concat_of_lt (h : s.IsLeastRecent seen k) (ht : s.lastAccess? k = some t)
    (hu : s.lastAccess? j = some u) (hut : u < t) : s.IsLeastRecent (seen ++ [j]) j :=
  ⟨u, hu, seen, [], rfl, fun _ hm _ hv => Nat.lt_of_lt_of_le hut (h.le ht hm hv), nofun⟩

end IsLeastRecent

/-- With the best of what was seen in hand the scan ends with the best of all. -/
theorem candidate?_of_best {seen ks : List Key} (hbest : s.IsLeastRecent seen k)
    (ht : s.lastAccess? k = some t) (hheld : ∀ j ∈ ks, (s.item? j).isSome)
    (hfresh : ∀ j ∈ ks, ¬ s.HasExpired now j) :
    ∃ m, s.candidate? now (some (k, t)) ks = some m ∧ s.IsLeastRecent (seen ++ ks) m := by
  induction ks generalizing seen k t with
  | nil => exact ⟨k, rfl, by rwa [List.append_nil]⟩
  | cons j ks ih =>
    obtain ⟨hj, hothers⟩ := List.forall_mem_cons.mp hheld
    obtain ⟨hjFresh, hothersFresh⟩ := List.forall_mem_cons.mp hfresh
    rw [← isSome_lastAccess?] at hj
    obtain ⟨u, hu⟩ := Option.isSome_iff_exists.mp hj
    rw [show seen ++ j :: ks = seen ++ [j] ++ ks by simp]
    rcases Nat.lt_or_ge u t with hut | htu
    · rw [candidate?_replace hjFresh hu hut]
      exact ih (hbest.concat_of_lt ht hu hut) hu hothers hothersFresh
    · rw [candidate?_keep hjFresh hu htu]
      exact ih (hbest.concat_of_le ht hu htu) ht hothers hothersFresh

theorem candidate?_of_fresh {ks : List Key} (hne : ks ≠ [])
    (hheld : ∀ j ∈ ks, (s.item? j).isSome) (hfresh : ∀ j ∈ ks, ¬ s.HasExpired now j) :
    ∃ k, s.candidate? now none ks = some k ∧ s.IsLeastRecent ks k := by
  obtain ⟨j, rest, rfl⟩ := List.exists_cons_of_ne_nil hne
  obtain ⟨hj, hothers⟩ := List.forall_mem_cons.mp hheld
  obtain ⟨hjFresh, hothersFresh⟩ := List.forall_mem_cons.mp hfresh
  rw [← isSome_lastAccess?] at hj
  obtain ⟨u, hu⟩ := Option.isSome_iff_exists.mp hj
  rw [candidate?_first hjFresh hu]
  exact candidate?_of_best (.singleton hu) hu hothers hothersFresh

/-- Where some entry has expired there is a first one. -/
theorem exists_isFirstExpired {ks : List Key} (h : ∃ j ∈ ks, s.HasExpired now j) :
    ∃ k, s.IsFirstExpired now ks k := by
  obtain ⟨j, hj, hexpired⟩ := h
  have hfound : (ks.find? fun j => decide (s.HasExpired now j)).isSome = true :=
    List.find?_isSome.mpr ⟨j, hj, decide_eq_true hexpired⟩
  obtain ⟨k, hk⟩ := Option.isSome_iff_exists.mp hfound
  obtain ⟨hfirst, before, after, hks, hbefore⟩ := List.find?_eq_some_iff_append.mp hk
  exact ⟨k, of_decide_eq_true hfirst, before, after, hks, fun m hm => by simpa using hbefore m hm⟩

end Scans

/-! ### The sample -/

section Samples
variable {s : Store}

theorem sample_of_few (h : s.slots.length ≤ 5) (draw : Nat → Nat) : s.sample draw = s.slots :=
  if_pos h

/-- Of more keys, five positions are drawn. -/
theorem sample_of_many (h : 5 < s.slots.length) (draw : Nat → Nat) :
    (s.sample draw).length = 5 ∧
      ∀ i < 5, (s.sample draw)[i]? = s.slots[draw i % s.slots.length]? := by
  have hdrawn (i : Nat) : draw i % s.slots.length < s.slots.length := Nat.mod_lt _ (by omega)
  have hsample : s.sample draw =
      (List.range 5).map fun i => s.slots.get ⟨draw i % s.slots.length, hdrawn i⟩ := by
    have hmany : ¬ s.slots.length ≤ sampleSize := Nat.not_le.mpr h
    rw [sample, if_neg hmany, ← List.filterMap_eq_map]
    exact List.filterMap_congr fun i _ => List.getElem?_eq_getElem (hdrawn i)
  rw [hsample]
  refine ⟨by simp, fun i hi => ?_⟩
  rw [List.getElem?_map, List.getElem?_range hi, List.getElem?_eq_getElem (hdrawn i)]
  rfl

namespace Consistent
variable (hs : s.Consistent)
include hs

theorem length_slots : s.slots.length = s.length := by
  have hperm : s.slots.Perm (s.table.map Prod.fst) := by
    refine (List.perm_ext_iff_of_nodup hs.slots_nodup hs.keys_nodup).mpr fun k => ?_
    rw [hs.mem_slots, mem_keys_iff, ← Option.isSome_iff_exists, item?, Option.isSome_map]
    rfl
  rw [hperm.length_eq, List.length_map, length]

/-- An eviction chooses among the entries that are there, and finds one. -/
theorem victim?_spec (hne : 0 < s.length) (now : Time) (draw : Nat → Nat) :
    ∃ k, s.victim? now draw = some k ∧ (s.item? k).isSome ∧
      ((∃ j ∈ s.sample draw, s.HasExpired now j) → s.IsFirstExpired now (s.sample draw) k) ∧
      ((∀ j ∈ s.sample draw, ¬ s.HasExpired now j) → s.IsLeastRecent (s.sample draw) k) := by
  have hslots : s.slots ≠ [] := by
    rw [← List.length_pos_iff, hs.length_slots]
    exact hne
  obtain ⟨k, hk⟩ : ∃ k, s.victim? now draw = some k := hs.exists_victim? hslots draw
  refine ⟨k, hk, (hs.mem_slots k).mp (mem_slots_of_victim? hk), fun hexpired => ?_,
    fun hfresh => ?_⟩
  · obtain ⟨m, hm⟩ := exists_isFirstExpired hexpired
    have hchosen := candidate?_of_isFirstExpired hm none
    rwa [Option.some.inj (hk.symm.trans hchosen)]
  · have hheld : ∀ j ∈ s.sample draw, (s.item? j).isSome := fun j hj =>
      (hs.mem_slots j).mp (mem_slots_of_mem_sample hj)
    obtain ⟨j, hj⟩ := exists_mem_sample hslots draw
    obtain ⟨m, hchosen, hm⟩ := candidate?_of_fresh (List.ne_nil_of_mem hj) hheld hfresh
    rwa [Option.some.inj (hk.symm.trans hchosen)]

end Consistent

end Samples

end Store

namespace Metered

/-- The call uses the key: it writes it, or it reads it and finds its entry. -/
def used? (c : Metered) (k : Key) : Call → Option Time
  | .set j value expires now _ =>
    if j = k ∧ c.store.Accepts value expires now then some now else none
  | .get j now => if j = k ∧ (c.store.get? k now).isSome then some now else none
  | .purge _ => none

def lastUse? (c : Metered) (k : Key) : List Call → Option Time
  | [] => none
  | call :: rest => ((c.perform call).lastUse? k rest).or (c.used? k call)

/-- What is there after a call tells of the call, if that used it, and else what it told before. -/
theorem lastAccess?_perform {c : Metered} (hc : c.store.Consistent) {call : Call} {k : Key}
    {t : Time} (h : (c.perform call).store.lastAccess? k = some t) :
    (c.used? k call).or (c.store.lastAccess? k) = some t := by
  obtain ⟨i, hi, rfl⟩ := Option.map_eq_some_iff.mp h
  cases call with
  | set j value expires now draws =>
    rw [perform, store_set] at hi
    by_cases hacc : c.store.Accepts value expires now
    · rw [Store.item?_set hacc] at hi
      split_ifs at hi with hkj
      · obtain rfl := Option.some.inj hi
        simp [used?, hkj, hacc]
      · have hjk : ¬ j = k := fun heq => hkj heq.symm
        simp [used?, hjk, Store.lastAccess?, hi]
    · have hsame : (c.store.set j value expires now draws).2 = c.store := by
        rcases Store.set_of_not_accepts hacc j draws with hset | hset <;> rw [hset]
      rw [hsame] at hi
      simp [used?, hacc, Store.lastAccess?, hi]
  | get j now =>
    rw [perform, store_get, Store.item?_get] at hi
    split_ifs at hi with hkj
    · subst hkj
      obtain ⟨i', hi', rfl⟩ := Option.map_eq_some_iff.mp hi
      have hfound : (c.store.get? k now).isSome = true := by
        rw [Store.get?_eq_item?, hi']
        rfl
      simp [used?, hfound]
    · have hjk : ¬ j = k := fun heq => hkj heq.symm
      simp [used?, hjk, Store.lastAccess?, hi]
  | purge now =>
    rw [perform, store_purge, Store.item?_purge hc] at hi
    simp [used?, Store.lastAccess?, (Option.filter_eq_some_iff.mp hi).1]

theorem lastAccess?_run {c : Metered} (hc : c.store.Consistent) {calls : List Call} {k : Key}
    {t : Time} (h : (c.run calls).store.lastAccess? k = some t) :
    (c.lastUse? k calls).or (c.store.lastAccess? k) = some t := by
  induction calls generalizing c with
  | nil => exact h
  | cons call rest ih =>
    have hrest := ih (consistent_perform hc call) h
    rw [lastUse?, Option.or_assoc]
    rcases Option.or_eq_some_iff.mp hrest with hlater | ⟨hnone, hfirst⟩
    · rw [hlater, Option.some_or]
    · rw [hnone, Option.none_or]
      exact lastAccess?_perform hc hfirst

/-- Removals do not change what the other entries tell. -/
theorem lastUse?_of_removed {capacity maxItemSize : Nat} {metrics : Metrics} {calls : List Call}
    {removed : List Key} {k : Key} {t : Time} :
    let c := fresh capacity maxItemSize metrics
    (removed.foldl Store.erase (c.run calls).store).lastAccess? k = some t →
      c.lastUse? k calls = some t := by
  intro c h
  have hbefore : (c.run calls).store.lastAccess? k = some t := by
    obtain ⟨i, hi, rfl⟩ := Option.map_eq_some_iff.mp h
    rw [Store.item?_foldl_erase] at hi
    split_ifs at hi
    exact congrArg (Option.map Item.lastAccess) hi
  have huse := lastAccess?_run (consistent_fresh capacity maxItemSize metrics) hbefore
  have hempty : (fresh capacity maxItemSize metrics).store.lastAccess? k = none := rfl
  rwa [hempty, Option.or_none] at huse

/-- What an eviction chooses in a store that some calls, and after them some removals, have left. It
inspects all entries in the order of their slots while there are at most five, and else five drawn
positions. As long as there are entries it finds one: the first of the sample that has expired, and
if there is none the one that was used least recently, of several the first. What an entry tells of
its use is the last call that used it, so among at most five the choice is the true one. -/
theorem victim?_first_expired_else_least_recent (capacity maxItemSize : Nat) (metrics : Metrics)
    (calls : List Call) (removed : List Key) (now : Time) (draw : Nat → Nat) :
    let c := fresh capacity maxItemSize metrics
    let s := removed.foldl Store.erase (c.run calls).store
    (∀ j t, s.lastAccess? j = some t → c.lastUse? j calls = some t) ∧
    (5 < s.length → (s.sample draw).length = 5 ∧
      ∀ i < 5, (s.sample draw)[i]? = s.slots[draw i % s.length]?) ∧
    (s.length ≤ 5 → s.sample draw = s.slots) ∧
    (0 < s.length → ∃ k, s.victim? now draw = some k ∧ (s.item? k).isSome ∧
      ((∃ j ∈ s.sample draw, s.HasExpired now j) → s.IsFirstExpired now (s.sample draw) k) ∧
      ((∀ j ∈ s.sample draw, ¬ s.HasExpired now j) → s.IsLeastRecent (s.sample draw) k) ∧
      (s.length ≤ 5 → ((∃ j, s.HasExpired now j) → s.IsFirstExpired now s.slots k) ∧
        ((∀ j, ¬ s.HasExpired now j) → ∀ j, (s.item? j).isSome →
          ∃ t u, c.lastUse? k calls = some t ∧ c.lastUse? j calls = some u ∧ t ≤ u))) := by
  intro c s
  have hrun : (c.run calls).store.Consistent :=
    consistent_run (consistent_fresh capacity maxItemSize metrics) calls
  have hs : s.Consistent := hrun.foldl_erase removed
  have hlength : s.slots.length = s.length := hs.length_slots
  have huse : ∀ j t, s.lastAccess? j = some t → c.lastUse? j calls = some t := fun _ _ =>
    lastUse?_of_removed
  have hall : s.length ≤ 5 → s.sample draw = s.slots := fun hfew =>
    Store.sample_of_few (hlength ▸ hfew) draw
  refine ⟨huse, fun hmany => ?_, hall, fun hne => ?_⟩
  · rw [← hlength] at hmany ⊢
    exact Store.sample_of_many hmany draw
  · obtain ⟨k, hk, hheld, hfirst, hleast⟩ := hs.victim?_spec hne now draw
    refine ⟨k, hk, hheld, hfirst, hleast, fun hfew => ?_⟩
    rw [hall hfew] at hfirst hleast
    refine ⟨fun ⟨j, hexpired⟩ => hfirst ⟨j, ?_, hexpired⟩, fun hfresh j hj => ?_⟩
    · obtain ⟨i, hi, -⟩ := hexpired
      rw [hs.mem_slots, show s.item? j = some i from hi]
      rfl
    · have hbest := hleast fun m _ => hfresh m
      obtain ⟨t, ht⟩ := Option.isSome_iff_exists.mp (Store.isSome_lastAccess?.trans hheld)
      obtain ⟨u, hu⟩ := Option.isSome_iff_exists.mp (Store.isSome_lastAccess?.trans hj)
      have htu : t ≤ u := hbest.le ht ((hs.mem_slots j).mpr hj) hu
      exact ⟨t, u, huse k t ht, huse j u hu, htu⟩

/-- The key that takes the place of a removed one is drawn. Of five positions two are the same, and
three tie: the first of them goes, although keys that were not drawn were used before. -/
theorem victim?_first_expired_else_least_recent_of_repeated_draw :
    let write (k : Key) (now : Time) := Call.set k [k.toUInt8] 30 now fun _ _ => 0
    let calls := [write 7 0, write 1 0, write 2 3, write 3 0, write 4 0, write 5 2, write 6 1,
      .get 3 1]
    let c := fresh 100 10 []
    let s := [7].foldl Store.erase (c.run calls).store
    let draw (i : Nat) := [5, 3, 6, 9, 2].getD i 0
    0 < s.length ∧ s.slots = [6, 1, 2, 3, 4, 5] ∧ s.sample draw = [5, 3, 6, 3, 2] ∧
      s.victim? 5 draw = some 3 ∧ (s.item? 3).isSome ∧ s.IsLeastRecent (s.sample draw) 3 ∧
      c.lastUse? 3 calls = some 1 := by
  intro write calls c s draw
  have hne : 0 < s.length := by decide +kernel
  have hthird : s.victim? 5 draw = some 3 := by decide +kernel
  obtain ⟨huse, -, -, hvictim⟩ := victim?_first_expired_else_least_recent 100 10 [] calls [7] 5 draw
  obtain ⟨k, hk, hheld, -, hleast, -⟩ := hvictim hne
  obtain rfl : 3 = k := Option.some.inj (hthird.symm.trans hk)
  have hlive : (s.sample draw).all (fun j => decide (¬ s.HasExpired 5 j)) = true := by decide +kernel
  have hfresh : ∀ j ∈ s.sample draw, ¬ s.HasExpired 5 j := fun j hj =>
    of_decide_eq_true (List.all_eq_true.mp hlive j hj)
  refine ⟨hne, by decide +kernel, by decide +kernel, hthird, hheld, hleast hfresh, huse 3 1 ?_⟩
  decide +kernel

end Metered

end Gateway.Cache
