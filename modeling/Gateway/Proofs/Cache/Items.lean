import Gateway.Cache.Metered
import Gateway.Proofs.Cache.Table

/-! What the store holds for a key, whatever its slot, and how each operation changes it. -/
namespace Gateway.Cache

/-- An entry without its slot. -/
structure Item where
  value : Bytes
  expires : Time
  lastAccess : Time
  deriving DecidableEq

def Entry.item (e : Entry) : Item := ⟨e.value, e.expires, e.lastAccess⟩

namespace Store

def item? (s : Store) (k : Key) : Option Item := (s.find? k).map Entry.item

theorem item?_eq_none {s : Store} {k : Key} : s.item? k = none ↔ s.find? k = none := by
  simp [item?]

theorem get?_eq_item? (s : Store) (k : Key) (now : Time) :
    s.get? k now = ((s.item? k).filter (now < ·.expires)).map Item.value := by
  unfold get? item?
  cases s.find? k with
  | none => rfl
  | some e => by_cases h : now < e.expires <;> simp [Option.filter, Entry.item, h]

/-! ### Changes of the table -/

theorem lookup_setSlot (k m : Key) (slot : Nat) (t : List (Key × Entry)) :
    (setSlot k slot t).lookup m =
      (t.lookup m).map fun e => if m = k then { e with slot } else e :=
  lookup_map_at (fun e : Entry => { e with slot }) t k m

theorem lookup_touch (k m : Key) (now : Time) (t : List (Key × Entry)) :
    (touch k now t).lookup m =
      (t.lookup m).map fun e => if m = k then { e with lastAccess := now } else e :=
  lookup_map_at (fun e : Entry => { e with lastAccess := now }) t k m

theorem erase_of_none {s : Store} {k : Key} (h : s.find? k = none) : s.erase k = s := by
  simp [erase, h]

/-- The entry of another key stays, and has a new slot if it was moved. -/
theorem find?_erase {s : Store} {k : Key} {e : Entry} (h : s.find? k = some e) (m : Key) :
    (s.erase k).find? m =
      if m = k then none
      else (s.find? m).map fun f =>
        if (swapRemove s.slots e.slot)[e.slot]? = some m then { f with slot := e.slot } else f := by
  unfold erase
  rw [h]
  dsimp only [find?]
  cases hmoved : (swapRemove s.slots e.slot)[e.slot]? with
  | none =>
    dsimp only
    rw [lookup_filter_ne]
    simp
  | some moved =>
    dsimp only
    rw [lookup_setSlot, lookup_filter_ne]
    have hmm : (some moved = some m) = (m = moved) := by simp [eq_comm]
    by_cases hm : m = k
    · simp [hm]
    · simp only [hm, if_false, hmm]

theorem item?_erase (s : Store) (k m : Key) :
    (s.erase k).item? m = if m = k then none else s.item? m := by
  cases h : s.find? k with
  | none =>
    rw [erase_of_none h]
    split_ifs with hm
    · rw [hm, item?_eq_none, h]
    · rfl
  | some e =>
    unfold item?
    rw [find?_erase h]
    by_cases hm : m = k
    · simp [hm]
    · rw [if_neg hm, if_neg hm, Option.map_map]
      congr 1
      funext f
      dsimp only [Function.comp]
      split_ifs <;> rfl

theorem item?_foldl_erase (s : Store) (ks : List Key) (m : Key) :
    (ks.foldl erase s).item? m = if m ∈ ks then none else s.item? m := by
  induction ks generalizing s with
  | nil => simp
  | cons k rest ih =>
    rw [List.foldl_cons, ih, item?_erase]
    by_cases hm : m ∈ rest
    · simp [hm]
    · simp [hm]

theorem item?_add (s : Store) (k m : Key) (value : Bytes) (expires now : Time) :
    (s.add k value expires now).item? m =
      if m = k then some ⟨value, expires, now⟩ else s.item? m := by
  unfold item? find? add
  dsimp only
  rw [List.lookup_cons]
  by_cases hm : m = k
  · simp [hm, Entry.item]
  · have : (m == k) = false := beq_eq_false_iff_ne.mpr hm
    simp [hm, this]

/-! ### Reads -/

def Found.value? : Found → Option Bytes
  | live value => some value
  | absent | expired => none

theorem value?_get (s : Store) (k : Key) (now : Time) :
    (s.get k now).1.value? = s.get? k now := by
  unfold get get?
  cases s.find? k with
  | none => rfl
  | some e => by_cases h : now < e.expires <;> simp [Option.filter, Found.value?, h]

theorem item?_get (s : Store) (k m : Key) (now : Time) :
    (s.get k now).2.item? m =
      if m = k then
        ((s.item? k).filter (now < ·.expires)).map fun i => { i with lastAccess := now }
      else s.item? m := by
  unfold get
  cases h : s.find? k with
  | none =>
    split_ifs with hm
    · subst hm
      simp [item?, h]
    · rfl
  | some e =>
    dsimp only
    by_cases hlive : now < e.expires
    · have hk : s.item? k = some e.item := by simp [item?, h]
      rw [if_pos hlive]
      dsimp only [item?, find?]
      rw [lookup_touch]
      by_cases hm : m = k
      · subst hm
        have hl : s.table.lookup m = some e := h
        simp [hl, Entry.item, Option.filter, hlive]
      · simp [hm]
    · have hk : s.item? k = some e.item := by simp [item?, h]
      rw [if_neg hlive, item?_erase, hk]
      simp [Option.filter, Entry.item, hlive]

/-! ### Evictions and writes -/

theorem evict_of_fits {s : Store} {need : Nat} (h : s.size + need ≤ s.capacity) (now : Time)
    (draws : Draws) (fuel : Nat) : evict need now draws fuel s = ([], s) := by
  cases fuel with
  | zero => rfl
  | succ fuel => rw [evict, if_neg (by omega)]

theorem evict_of_victim {s : Store} {need : Nat} (h : s.capacity < s.size + need) {now : Time}
    {draws : Draws} {fuel : Nat} {k : Key} (hk : s.victim? now (draws fuel) = some k) :
    evict need now draws (fuel + 1) s =
      (k :: (evict need now draws fuel (s.erase k)).1,
        (evict need now draws fuel (s.erase k)).2) := by
  rw [evict, if_pos h, hk]

theorem evict_of_no_victim {s : Store} {need : Nat} {now : Time} {draws : Draws} {fuel : Nat}
    (hk : s.victim? now (draws fuel) = none) : evict need now draws (fuel + 1) s = ([], s) := by
  rw [evict, hk]
  split_ifs <;> rfl

/-- Evicting is removing the victims in order. -/
theorem evict_snd (need : Nat) (now : Time) (draws : Draws) (fuel : Nat) (s : Store) :
    (evict need now draws fuel s).2 = (evict need now draws fuel s).1.foldl erase s := by
  induction fuel generalizing s with
  | zero => rfl
  | succ fuel ih =>
    by_cases hfits : s.size + need ≤ s.capacity
    · rw [evict_of_fits hfits]
      rfl
    · cases hv : s.victim? now (draws fuel) with
      | none =>
        rw [evict_of_no_victim hv]
        rfl
      | some k =>
        rw [evict_of_victim (by omega) hv]
        exact ih (s.erase k)

theorem item?_evict (need : Nat) (now : Time) (draws : Draws) (fuel : Nat) (s : Store) (m : Key) :
    (evict need now draws fuel s).2.item? m =
      if m ∈ (evict need now draws fuel s).1 then none else s.item? m := by
  rw [evict_snd, item?_foldl_erase]

/-- A write is accepted when its value fits and has not expired yet. -/
def Accepts (s : Store) (value : Bytes) (expires now : Time) : Prop :=
  value.length ≤ s.maxItemSize ∧ value.length ≤ s.capacity ∧ now < expires

def evicted (s : Store) (k : Key) (value : Bytes) (now : Time) (draws : Draws) : List Key :=
  (evict value.length now draws (s.erase k).slots.length (s.erase k)).1

/-- A write that is not accepted changes nothing. -/
theorem set_of_not_accepts {s : Store} {value : Bytes} {expires now : Time}
    (h : ¬ s.Accepts value expires now) (k : Key) (draws : Draws) :
    s.set k value expires now draws = (.tooLarge, s) ∨
      s.set k value expires now draws = (.alreadyExpired, s) := by
  unfold set
  split_ifs with hlarge hexpired
  · exact .inl rfl
  · exact .inr rfl
  · have hfits : value.length ≤ s.maxItemSize ∧ value.length ≤ s.capacity := by omega
    exact absurd ⟨hfits.1, hfits.2, Nat.lt_of_not_le hexpired⟩ h

theorem set_of_accepts {s : Store} {value : Bytes} {expires now : Time}
    (h : s.Accepts value expires now) (k : Key) (draws : Draws) :
    s.set k value expires now draws =
      (.stored (s.evicted k value now draws),
        (evict value.length now draws (s.erase k).slots.length (s.erase k)).2.add
          k value expires now) := by
  obtain ⟨hitem, hcap, hlive⟩ := h
  unfold set evicted
  rw [if_neg (by omega), if_neg (Nat.not_le.mpr hlive)]

theorem item?_set {s : Store} {value : Bytes} {expires now : Time}
    (h : s.Accepts value expires now) (k m : Key) (draws : Draws) :
    (s.set k value expires now draws).2.item? m =
      if m = k then some ⟨value, expires, now⟩
      else if m ∈ s.evicted k value now draws then none
      else s.item? m := by
  rw [set_of_accepts h]
  dsimp only
  rw [item?_add, item?_evict, item?_erase]
  by_cases hm : m = k
  · simp [hm]
  · simp only [hm, if_false]
    rfl

end Store

end Gateway.Cache
