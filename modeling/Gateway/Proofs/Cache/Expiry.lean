import Gateway.Proofs.Cache.Calls

/-! The store is a map with expiry that forgets only what it evicts: a read finds the value of the
last accepted write of its key, unless that has expired or the key was evicted since. -/
namespace Gateway.Cache

namespace Store

/-! ### What later readers find -/

theorem get?_set {s : Store} {value : Bytes} {expires now : Time}
    (h : s.Accepts value expires now) (k m : Key) (draws : Draws) (t : Time) :
    (s.set k value expires now draws).2.get? m t =
      if m = k then if t < expires then some value else none
      else if m ∈ s.evicted k value now draws then none
      else s.get? m t := by
  rw [get?_eq_item?, item?_set h]
  split_ifs with hm hlive hvictim
  · simp [Option.filter, hlive]
  · simp [Option.filter, hlive]
  · rfl
  · exact (get?_eq_item? s m t).symm

/-- A read removes nothing that a later read would find. -/
theorem get?_get (s : Store) (k m : Key) {now t : Time} (h : now ≤ t) :
    (s.get k now).2.get? m t = s.get? m t := by
  rw [get?_eq_item?, get?_eq_item?, item?_get]
  split_ifs with hm
  · subst hm
    cases s.item? m with
    | none => rfl
    | some i =>
      by_cases hlive : now < i.expires
      · simp only [Option.filter, hlive, decide_true, if_true, Option.map_some]
        split_ifs <;> rfl
      · have hdead : ¬ t < i.expires := fun ht => hlive (Nat.lt_of_le_of_lt h ht)
        simp [Option.filter, hlive, hdead]
  · rfl

theorem mem_expiredKeys {s : Store} (hs : s.Consistent) {now : Time} {k : Key} :
    k ∈ s.expiredKeys now ↔ ∃ i, s.item? k = some i ∧ i.expires ≤ now := by
  unfold expiredKeys item?
  constructor
  · intro h
    obtain ⟨p, hp, rfl⟩ := List.mem_map.mp h
    obtain ⟨hmem, hle⟩ := List.mem_filter.mp hp
    have hentry : s.find? p.1 = some p.2 := lookup_of_mem hs.keys_nodup hmem
    exact ⟨p.2.item, by rw [hentry]; rfl, of_decide_eq_true hle⟩
  · rintro ⟨i, hi, hle⟩
    obtain ⟨e, he, rfl⟩ := Option.map_eq_some_iff.mp hi
    exact List.mem_map.mpr ⟨(k, e), List.mem_filter.mpr ⟨mem_of_lookup he, decide_eq_true hle⟩, rfl⟩

/-- A sweep removes what has expired and leaves the rest as it is. -/
theorem item?_purge {s : Store} (hs : s.Consistent) (now : Time) (k : Key) :
    (s.purge now).2.item? k = (s.item? k).filter (now < ·.expires) := by
  unfold purge
  dsimp only
  rw [item?_foldl_erase]
  cases hi : s.item? k with
  | none => simp
  | some i =>
    by_cases hlive : now < i.expires
    · have hout : k ∉ s.expiredKeys now := by
        rw [mem_expiredKeys hs]
        rintro ⟨j, hj, hle⟩
        have : i = j := Option.some.inj (hi.symm.trans hj)
        subst this
        exact absurd hlive (Nat.not_lt.mpr hle)
      simp [hout, Option.filter, hlive]
    · have hin : k ∈ s.expiredKeys now := (mem_expiredKeys hs).mpr ⟨i, hi, Nat.not_lt.mp hlive⟩
      simp [hin, Option.filter, hlive]

theorem get?_purge {s : Store} (hs : s.Consistent) (k : Key) {now t : Time} (h : now ≤ t) :
    (s.purge now).2.get? k t = s.get? k t := by
  rw [get?_eq_item?, get?_eq_item?, item?_purge hs]
  cases s.item? k with
  | none => rfl
  | some i =>
    by_cases hlive : t < i.expires
    · have : now < i.expires := Nat.lt_of_le_of_lt h hlive
      simp [Option.filter, hlive, this]
    · by_cases hnow : now < i.expires
      · simp [Option.filter, hlive, hnow]
      · simp [Option.filter, hlive, hnow]

def Written.victims : Written → List Key
  | stored keys => keys
  | tooLarge | alreadyExpired => []

instance (s : Store) (value : Bytes) (expires now : Time) :
    Decidable (s.Accepts value expires now) :=
  inferInstanceAs (Decidable (_ ∧ _ ∧ _))

end Store

namespace Metered

def victims (c : Metered) : Call → List Key
  | .set k value expires now draws => (c.store.set k value expires now draws).1.victims
  | .get _ _ | .purge _ => []

def Writes (c : Metered) (k : Key) : Call → Prop
  | .set j value expires now _ => j = k ∧ c.store.Accepts value expires now
  | .get _ _ | .purge _ => False

instance (c : Metered) (k : Key) : (call : Call) → Decidable (c.Writes k call)
  | .set j value expires now _ =>
    inferInstanceAs (Decidable (j = k ∧ c.store.Accepts value expires now))
  | .get _ _ | .purge _ => inferInstanceAs (Decidable False)

/-- None of the calls writes the key or evicts it. -/
def Leaves (c : Metered) (k : Key) : List Call → Prop
  | [] => True
  | call :: rest => ¬ c.Writes k call ∧ k ∉ c.victims call ∧ (c.perform call).Leaves k rest

instance decidableLeaves (c : Metered) (k : Key) : (calls : List Call) → Decidable (c.Leaves k calls)
  | [] => inferInstanceAs (Decidable True)
  | call :: rest =>
    have := decidableLeaves (c.perform call) k rest
    inferInstanceAs (Decidable (_ ∧ _ ∧ _))

/-- The last accepted write of the key carried this value and this expiry, and the key has not been
evicted since. -/
def LastWrite (c : Metered) (calls : List Call) (k : Key) (value : Bytes) (expires : Time) : Prop :=
  ∃ before now draws after, calls = before ++ .set k value expires now draws :: after ∧
    c.store.Accepts value expires now ∧
    (c.run (before ++ [.set k value expires now draws])).Leaves k after

theorem accepts_perform (c : Metered) (call : Call) (value : Bytes) (expires now : Time) :
    (c.perform call).store.Accepts value expires now ↔ c.store.Accepts value expires now := by
  unfold Store.Accepts
  rw [(c.limits_perform call).1, (c.limits_perform call).2]

/-- A write that is not accepted changes nothing, also where the key has an entry. -/
theorem set_of_not_accepts {c : Metered} {value : Bytes} {expires now : Time}
    (h : ¬ c.store.Accepts value expires now) (k : Key) (draws : Draws) :
    c.set k value expires now draws = c := by
  unfold set
  rcases Store.set_of_not_accepts h k draws with hset | hset
  · rw [hset]
  · rw [hset]

theorem victims_of_accepts {c : Metered} {value : Bytes} {expires now : Time}
    (h : c.store.Accepts value expires now) (k : Key) (draws : Draws) :
    c.victims (.set k value expires now draws) = c.store.evicted k value now draws := by
  simp [victims, Store.set_of_accepts h, Store.Written.victims]

theorem victims_of_not_accepts {c : Metered} {value : Bytes} {expires now : Time}
    (h : ¬ c.store.Accepts value expires now) (k : Key) (draws : Draws) :
    c.victims (.set k value expires now draws) = [] := by
  simp only [victims]
  rcases Store.set_of_not_accepts h k draws with hset | hset
  · rw [hset]
    rfl
  · rw [hset]
    rfl

/-- What an accepted write means for later readers of a key. -/
theorem get?_accepted {c : Metered} {j : Key} {stored : Bytes} {expires now : Time} {draws : Draws}
    (hacc : c.store.Accepts stored expires now) (k : Key) (value : Bytes) (t : Time) :
    (c.perform (.set j stored expires now draws)).store.get? k t = some value ↔
      (j = k ∧ stored = value ∧ t < expires) ∨
      (j ≠ k ∧ k ∉ c.victims (.set j stored expires now draws) ∧ c.store.get? k t = some value) := by
  -- the key that is written is removed first, so it is never among the victims
  rw [perform, store_set, Store.get?_set hacc, victims_of_accepts hacc]
  by_cases hk : k = j
  · subst hk
    by_cases hlive : t < expires
    · simp [hlive]
    · simp [hlive]
  · have hjk : j ≠ k := fun h => hk h.symm
    rw [if_neg hk]
    by_cases hv : k ∈ c.store.evicted j stored now draws
    · simp [hv, hjk]
    · simp [hv, hjk]

/-- What one call means for later readers of a key. -/
theorem get?_perform {c : Metered} (hc : c.store.Consistent) {call : Call} {t : Time}
    (ht : call.time ≤ t) (k : Key) (value : Bytes) :
    (c.perform call).store.get? k t = some value ↔
      (∃ expires now draws, call = .set k value expires now draws ∧
        c.store.Accepts value expires now ∧ t < expires) ∨
      (¬ c.Writes k call ∧ k ∉ c.victims call ∧ c.store.get? k t = some value) := by
  cases call with
  | get j now =>
    have hget : (c.store.get j now).2.get? k t = c.store.get? k t := Store.get?_get _ _ _ ht
    rw [perform, store_get, hget]
    simp [Writes, victims]
  | purge now =>
    have hpurge : (c.store.purge now).2.get? k t = c.store.get? k t := Store.get?_purge hc k ht
    rw [perform, store_purge, hpurge]
    simp [Writes, victims]
  | set j stored expires now draws =>
    by_cases hacc : c.store.Accepts stored expires now
    · rw [get?_accepted hacc]
      constructor
      · rintro (⟨rfl, rfl, hlive⟩ | ⟨hjk, hout, h⟩)
        · exact .inl ⟨expires, now, draws, rfl, hacc, hlive⟩
        · exact .inr ⟨fun hw => hjk hw.1, hout, h⟩
      · rintro (⟨e, n, d, hcall, -, hlive⟩ | ⟨hw, hout, h⟩)
        · cases hcall
          exact .inl ⟨rfl, rfl, hlive⟩
        · exact .inr ⟨fun hjk => hw ⟨hjk, hacc⟩, hout, h⟩
    · have hsame : c.perform (.set j stored expires now draws) = c := set_of_not_accepts hacc j draws
      rw [hsame, victims_of_not_accepts hacc]
      constructor
      · intro h
        exact .inr ⟨fun hw => hacc hw.2, List.not_mem_nil, h⟩
      · rintro (⟨e, n, d, hcall, ha, -⟩ | ⟨-, -, h⟩)
        · cases hcall
          exact absurd ha hacc
        · exact h

theorem not_lastWrite_nil (c : Metered) (k : Key) (value : Bytes) (expires : Time) :
    ¬ c.LastWrite [] k value expires := by
  rintro ⟨before, _, _, _, hcalls, -⟩
  cases before <;> cases hcalls

/-- The last write is among the later calls, or it is the first call and the later ones leave it. -/
theorem lastWrite_cons (c : Metered) (call : Call) (rest : List Call) (k : Key) (value : Bytes)
    (expires : Time) :
    c.LastWrite (call :: rest) k value expires ↔
      (c.perform call).LastWrite rest k value expires ∨
      ∃ now draws, call = .set k value expires now draws ∧ c.store.Accepts value expires now ∧
        (c.perform call).Leaves k rest := by
  constructor
  · rintro ⟨before, now, draws, after, hcalls, hacc, hleaves⟩
    cases before with
    | nil =>
      obtain ⟨rfl, rfl⟩ := List.cons.inj hcalls
      exact .inr ⟨now, draws, rfl, hacc, hleaves⟩
    | cons first before =>
      obtain ⟨rfl, rfl⟩ := List.cons.inj hcalls
      exact .inl ⟨before, now, draws, after, rfl, (c.accepts_perform call _ _ _).mpr hacc, hleaves⟩
  · rintro (⟨before, now, draws, after, rfl, hacc, hleaves⟩ | ⟨now, draws, rfl, hacc, hleaves⟩)
    · exact ⟨call :: before, now, draws, after, rfl, (c.accepts_perform call _ _ _).mp hacc, hleaves⟩
    · exact ⟨[], now, draws, rest, rfl, hacc, hleaves⟩

theorem lastWrite_set (c : Metered) (j : Key) (stored : Bytes) (e now : Time) (draws : Draws)
    (rest : List Call) (k : Key) (value : Bytes) (expires : Time) :
    c.LastWrite (.set j stored e now draws :: rest) k value expires ↔
      (c.perform (.set j stored e now draws)).LastWrite rest k value expires ∨
      (j = k ∧ stored = value ∧ e = expires) ∧ c.store.Accepts value expires now ∧
        (c.perform (.set j stored e now draws)).Leaves k rest := by
  rw [lastWrite_cons]
  refine or_congr_right ⟨?_, ?_⟩
  · rintro ⟨n, d, hcall, hrest⟩
    cases hcall
    exact ⟨⟨rfl, rfl, rfl⟩, hrest⟩
  · rintro ⟨⟨rfl, rfl, rfl⟩, hrest⟩
    exact ⟨now, draws, rfl, hrest⟩

instance decidableLastWrite (c : Metered) (k : Key) (value : Bytes) (expires : Time) :
    (calls : List Call) → Decidable (c.LastWrite calls k value expires)
  | [] => .isFalse (c.not_lastWrite_nil k value expires)
  | .set j stored e now draws :: rest =>
    have := decidableLastWrite (c.perform (.set j stored e now draws)) k value expires rest
    decidable_of_iff _ (c.lastWrite_set j stored e now draws rest k value expires).symm
  | .get j now :: rest =>
    have := decidableLastWrite (c.perform (.get j now)) k value expires rest
    decidable_of_iff ((c.perform (.get j now)).LastWrite rest k value expires)
      (by simp [lastWrite_cons])
  | .purge now :: rest =>
    have := decidableLastWrite (c.perform (.purge now)) k value expires rest
    decidable_of_iff ((c.perform (.purge now)).LastWrite rest k value expires)
      (by simp [lastWrite_cons])

theorem get?_run {c : Metered} (hc : c.store.Consistent) {calls : List Call} {t : Time}
    (ht : ∀ call ∈ calls, call.time ≤ t) (k : Key) (value : Bytes) :
    (c.run calls).store.get? k t = some value ↔
      (∃ expires, c.LastWrite calls k value expires ∧ t < expires) ∨
      (c.Leaves k calls ∧ c.store.get? k t = some value) := by
  -- from the front, as what a call evicts depends on the store that it meets
  induction calls generalizing c with
  | nil => simp [not_lastWrite_nil, Leaves, run]
  | cons call rest ih =>
    have hstep := get?_perform hc (ht call List.mem_cons_self) k value
    have hrun := ih (consistent_perform hc call) fun d hd => ht d (List.mem_cons_of_mem call hd)
    change ((c.perform call).run rest).store.get? k t = some value ↔ _
    rw [hrun, hstep]
    simp only [lastWrite_cons, Leaves]
    constructor
    · rintro (⟨e, hlast, hlive⟩ | ⟨hleaves, ⟨e, n, d, hcall, hacc, hlive⟩ | ⟨hw, hv, hget⟩⟩)
      · exact .inl ⟨e, .inl hlast, hlive⟩
      · exact .inl ⟨e, .inr ⟨n, d, hcall, hacc, hleaves⟩, hlive⟩
      · exact .inr ⟨⟨hw, hv, hleaves⟩, hget⟩
    · rintro (⟨e, hlast | ⟨n, d, hcall, hacc, hleaves⟩, hlive⟩ | ⟨⟨hw, hv, hleaves⟩, hget⟩)
      · exact .inl ⟨e, hlast, hlive⟩
      · exact .inr ⟨hleaves, .inl ⟨e, n, d, hcall, hacc, hlive⟩⟩
      · exact .inr ⟨hleaves, .inr ⟨hw, hv, hget⟩⟩

/-- A read no earlier than the calls before it answers the value of the last accepted write of its
key, when that has not expired and the key was not evicted since; else it answers nothing. A write
that is not accepted leaves everything as it is. -/
theorem get_run_iff (capacity maxItemSize : Nat) (metrics : Metrics) (calls : List Call) (k : Key)
    {now : Time} (ht : ∀ call ∈ calls, call.time ≤ now) :
    let c := fresh capacity maxItemSize metrics
    (∀ value, ((c.run calls).get k now).1 = some value ↔
      ∃ expires, c.LastWrite calls k value expires ∧ now < expires) ∧
    ∀ j value expires t draws, ¬ c.store.Accepts value expires t →
      (c.run calls).set j value expires t draws = c.run calls := by
  intro c
  have hc : c.store.Consistent := consistent_fresh capacity maxItemSize metrics
  refine ⟨fun value => ?_, fun j value expires t draws hrejected => ?_⟩
  · have hempty : c.store.get? k now = none := rfl
    rw [get_fst, get?_run hc ht, hempty]
    simp
  · refine set_of_not_accepts ?_ j draws
    unfold Store.Accepts at hrejected ⊢
    rwa [(c.limits_run calls).1, (c.limits_run calls).2]

/-- The write of the third key evicts the second and leaves the first, which a value too long for
the store then does not replace. -/
theorem get_run_iff_of_eviction :
    let c := fresh 4 4 []
    let calls := [Call.set 2 [5] 30 0 (fun _ _ => 0), .set 1 [7, 7] 10 1 (fun _ _ => 0),
      .set 3 [6, 6] 30 3 (fun _ _ => 0)]
    (∃ expires, c.LastWrite calls 1 [7, 7] expires ∧ 5 < expires) ∧
      (¬ ∃ expires, c.LastWrite calls 2 [5] expires ∧ 5 < expires) ∧
      (c.run calls).set 1 [8, 8, 8, 8, 8] 30 5 (fun _ _ => 0) = c.run calls := by
  intro c calls
  have htimes : ∀ call ∈ calls, call.time ≤ 5 := by decide
  have hfirst := get_run_iff 4 4 [] calls 1 htimes
  have hsecond := get_run_iff 4 4 [] calls 2 htimes
  refine ⟨(hfirst.1 [7, 7]).mp (by decide +kernel), ?_, hfirst.2 1 [8, 8, 8, 8, 8] 30 5 _ ?_⟩
  · exact fun h => absurd ((hsecond.1 [5]).mpr h) (by decide +kernel)
  · unfold Store.Accepts
    decide

end Metered

end Gateway.Cache
