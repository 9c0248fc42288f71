import Gateway.Cache.Store
import Mathlib.Data.List.Perm.Basic

/-! Tables as lists of keys and entries: what a lookup finds after a key was dropped or an entry was
changed, and the removal of a slot whose place the last one takes. -/
namespace Gateway.Cache

section Lookup
variable {κ β : Type} [DecidableEq κ]

theorem lookup_filter_ne (t : List (κ × β)) (k m : κ) :
    (t.filter (·.1 != k)).lookup m = if m = k then none else t.lookup m := by
  induction t with
  | nil => simp
  | cons p rest ih =>
    obtain ⟨j, b⟩ := p
    by_cases hj : j = k
    · subst hj
      have hf : ((j, b) :: rest).filter (·.1 != j) = rest.filter (·.1 != j) := by simp
      rw [hf, ih]
      by_cases hm : m = j
      · simp [hm]
      · have : (m == j) = false := beq_eq_false_iff_ne.mpr hm
        simp [List.lookup_cons, this]
    · have hf : ((j, b) :: rest).filter (·.1 != k) = (j, b) :: rest.filter (·.1 != k) := by
        simp [hj]
      rw [hf, List.lookup_cons, List.lookup_cons, ih]
      by_cases hm : m = j
      · subst hm
        simp [hj]
      · have : (m == j) = false := beq_eq_false_iff_ne.mpr hm
        simp [this]

/-- A change of the entry of one key. -/
theorem lookup_map_at (g : β → β) (t : List (κ × β)) (k m : κ) :
    (t.map fun (j, b) => if j = k then (j, g b) else (j, b)).lookup m =
      (t.lookup m).map fun b => if m = k then g b else b := by
  induction t with
  | nil => rfl
  | cons p rest ih =>
    obtain ⟨j, b⟩ := p
    have hhead : (if j = k then (j, g b) else (j, b)) = (j, if j = k then g b else b) := by
      split_ifs <;> rfl
    simp only [List.map_cons, hhead, List.lookup_cons, ih]
    by_cases hm : m = j
    · subst hm
      simp
    · have : (m == j) = false := beq_eq_false_iff_ne.mpr hm
      simp [this]

theorem mem_of_lookup {t : List (κ × β)} {k : κ} {b : β} (h : t.lookup k = some b) :
    (k, b) ∈ t := by
  obtain ⟨before, after, rfl, -⟩ := List.lookup_eq_some_iff.mp h
  simp

theorem lookup_of_mem {t : List (κ × β)} (ht : (t.map Prod.fst).Nodup) {k : κ} {b : β}
    (h : (k, b) ∈ t) : t.lookup k = some b := by
  induction t with
  | nil => simp at h
  | cons p rest ih =>
    simp only [List.map_cons, List.nodup_cons] at ht
    rw [List.lookup_cons]
    rcases List.mem_cons.mp h with rfl | h
    · simp
    · have hne : k ≠ p.1 := fun he => ht.1 (he ▸ List.mem_map_of_mem h)
      have : (k == p.1) = false := beq_eq_false_iff_ne.mpr hne
      rw [this]
      exact ih ht.2 h

theorem mem_keys_iff {t : List (κ × β)} {k : κ} :
    k ∈ t.map Prod.fst ↔ ∃ b, t.lookup k = some b := by
  rw [← Option.isSome_iff_exists, List.lookup_isSome_iff]
  simp

end Lookup

namespace Store

theorem swapRemove_perm {α : Type} {xs : List α} {i : Nat} {a : α} (h : xs[i]? = some a) :
    (a :: swapRemove xs i).Perm xs := by
  obtain ⟨hi, ha⟩ := List.getElem?_eq_some_iff.mp h
  have hne : xs ≠ [] := List.ne_nil_of_length_pos (by omega)
  obtain ⟨last, hlast⟩ : ∃ last, xs.getLast? = some last := ⟨_, List.getLast?_eq_some_getLast hne⟩
  have hsplit : xs = xs.dropLast ++ [last] := (List.dropLast_append_getLast? last hlast).symm
  have hperm : (last :: xs.dropLast).Perm xs := by
    conv_rhs => rw [hsplit]
    exact (List.perm_append_singleton last xs.dropLast).symm
  unfold swapRemove
  simp only [hlast]
  split_ifs with hlt
  · have hd : i < xs.dropLast.length := by rw [List.length_dropLast]; omega
    have hda : xs.dropLast[i] = a := by rw [List.getElem_dropLast]; exact ha
    have hset := List.set_perm_cons_eraseIdx hd last
    have herase := List.getElem_cons_eraseIdx_perm hd
    rw [hda] at herase
    exact (hset.cons a).trans ((List.Perm.swap last a _).trans ((herase.cons last).trans hperm))
  · have hil : i = xs.length - 1 := by omega
    have hla : last = a := by
      rw [List.getLast?_eq_getElem?, ← hil, h] at hlast
      exact (Option.some.inj hlast).symm
    rw [← hla]
    exact hperm

/-- Every slot but the one that was emptied keeps its key. -/
theorem getElem?_swapRemove {α : Type} {xs : List α} {i j : Nat} {a : α} (hj : j ≠ i)
    (h : (swapRemove xs i)[j]? = some a) : xs[j]? = some a := by
  unfold swapRemove at h
  cases hlast : xs.getLast? with
  | none => simp [hlast] at h
  | some last =>
    have hdrop : ∀ {b}, xs.dropLast[j]? = some b → xs[j]? = some b := by
      intro b hb
      rw [List.getElem?_dropLast] at hb
      split_ifs at hb
      exact hb
    simp only [hlast] at h
    split_ifs at h
    · rw [List.getElem?_set_ne (Ne.symm hj)] at h
      exact hdrop h
    · exact hdrop h

end Store

end Gateway.Cache
