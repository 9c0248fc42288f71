import Gateway.Cache.Exchange
import Gateway.Proofs.Cache.HashInput
import Gateway.Proofs.Cache.Table
import Mathlib.Data.List.Sort

/-! The names that a response varies on are a set in one fixed order, so responses that declare the
same names lead to the same key. The index keeps one list of names for each base key. -/
namespace Gateway

open Gateway.Http

namespace Http.HeaderName

theorem le_trans (a b c : HeaderName) (hab : a.le b = true) (hbc : b.le c = true) :
    a.le c = true :=
  decide_eq_true (List.le_trans (of_decide_eq_true hab) (of_decide_eq_true hbc))

theorem le_total (a b : HeaderName) : (a.le b || b.le a) = true := by
  rcases List.le_total a.bytes b.bytes with h | h
  · simp [le, h]
  · simp [le, h]

theorem le_antisymm {a b : HeaderName} (hab : a.le b = true) (hba : b.le a = true) : a = b :=
  HeaderName.ext (List.le_antisymm (of_decide_eq_true hab) (of_decide_eq_true hba))

/-- Byte order without equality. -/
def Before (a b : HeaderName) : Prop := a.le b = true ∧ a ≠ b

instance : Std.Irrefl Before := ⟨fun _ h => h.2 rfl⟩

instance : Std.Antisymm Before := ⟨fun _ _ hab hba => le_antisymm hab.1 hba.1⟩

end Http.HeaderName

namespace Cache

theorem mem_dedupAdjacent (names : List HeaderName) (n : HeaderName) :
    n ∈ dedupAdjacent names ↔ n ∈ names := by
  induction names using dedupAdjacent.induct with
  | case1 => rfl
  | case2 => rfl
  | case3 m rest ih =>
    rw [dedupAdjacent, if_pos rfl, ih]
    simp
  | case4 k m rest hne ih => rw [dedupAdjacent, if_neg hne, List.mem_cons, ih, ← List.mem_cons]

/-- Without its repetitions an ascending list ascends strictly. -/
theorem pairwise_dedupAdjacent {names : List HeaderName}
    (h : names.Pairwise fun a b => a.le b = true) :
    (dedupAdjacent names).Pairwise HeaderName.Before := by
  induction names using dedupAdjacent.induct with
  | case1 => exact .nil
  | case2 n => exact List.pairwise_singleton _ n
  | case3 m rest ih =>
    rw [dedupAdjacent, if_pos rfl]
    exact ih h.of_cons
  | case4 k m rest hne ih =>
    rw [dedupAdjacent, if_neg hne]
    obtain ⟨hhead, htail⟩ := List.pairwise_cons.mp h
    refine List.pairwise_cons.mpr ⟨fun n hn => ?_, ih htail⟩
    have hmem : n ∈ m :: rest := (mem_dedupAdjacent _ n).mp hn
    refine ⟨hhead n hmem, fun heq => ?_⟩
    -- a later copy of the head would have the next name between the two
    subst heq
    have hkm := hhead m List.mem_cons_self
    rcases List.mem_cons.mp hmem with heq | hrest
    · exact hne heq
    · exact hne (HeaderName.le_antisymm hkm ((List.pairwise_cons.mp htail).1 k hrest))

theorem pairwise_varyNames (h : Headers) : (varyNames h).Pairwise HeaderName.Before :=
  pairwise_dedupAdjacent (List.pairwise_mergeSort HeaderName.le_trans HeaderName.le_total _)

/-- The names are told by which ones they are. -/
theorem varyNames_eq_of_mem_iff {g h : Headers}
    (hmem : ∀ n, n ∈ varyNames g ↔ n ∈ varyNames h) : varyNames g = varyNames h :=
  (pairwise_varyNames g).eq_of_mem_iff (pairwise_varyNames h) hmem

/-- Only the `Vary` lines matter. -/
theorem varyNames_erase {n : HeaderName} (hn : n ≠ .vary) (h : Headers) :
    varyNames (h.erase n) = varyNames h := by
  have hvalues : (h.erase n).values .vary = h.values .vary := by
    rw [h.values_erase, if_neg (Ne.symm hn)]
  unfold varyNames Headers.tokens Headers.elements Headers.texts
  rw [hvalues]

namespace VaryIndex

/-- The names that a lookup assumes for a base key; without a note it assumes none. -/
def names (index : VaryIndex) (base : Key) : List HeaderName := (index.known? base).getD []

/-- What a list of names leaves in the index. Only an empty list that was there stays. -/
theorem known?_remember (index : VaryIndex) (base : Key) (ns : List HeaderName) (k : Key) :
    (index.remember base ns).known? k =
      if k = base then
        if ns = [] ∧ index.known? base ≠ some [] then none else some ns
      else index.known? k := by
  unfold remember
  by_cases hk : k = base
  · subst hk
    rw [if_pos rfl]
    by_cases hknown : index.known? k = some ns
    · have hkept : ¬ (ns = [] ∧ index.known? k ≠ some []) := by
        rintro ⟨rfl, hne⟩
        exact hne hknown
      rw [if_pos hknown, if_neg hkept, hknown]
    · rw [if_neg hknown]
      cases ns with
      | nil => simp [known?, lookup_filter_ne, show index.lookup k ≠ some [] from hknown]
      | cons n ns => simp [known?]
  · have hbeq : (k == base) = false := beq_eq_false_iff_ne.mpr hk
    rw [if_neg hk]
    split_ifs
    · rfl
    · simp [known?, lookup_filter_ne, hk]
    · simp [known?, List.lookup_cons, lookup_filter_ne, hk, hbeq]

theorem names_remember (index : VaryIndex) (base : Key) (ns : List HeaderName) (k : Key) :
    (index.remember base ns).names k = if k = base then ns else index.names k := by
  unfold names
  rw [known?_remember]
  split_ifs with hk hempty
  · exact hempty.1.symm
  · rfl
  · rfl

end VaryIndex

end Cache

end Gateway
