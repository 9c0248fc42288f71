import Gateway.Http.Headers
import Mathlib.Data.List.Flatten
import Mathlib.Data.List.Nodup

/-! A header section is what its field lines build, and a valid name or value is read back from its
octets. -/
namespace Gateway.Http

namespace HeaderName

theorem byte_valid (n : HeaderName) {b : UInt8} (h : b ∈ n.bytes) :
    isTokenByte b = true ∧ Bytes.isUpper b = false := by
  have hvalid := n.valid
  unfold isHeaderName at hvalid
  have hall := List.all_eq_true.mp (Bool.and_eq_true_iff.mp hvalid).2 b h
  simpa using hall

/-- Every octet of a name is ASCII. -/
theorem byte_lt (n : HeaderName) {b : UInt8} (h : b ∈ n.bytes) : b.toNat < 128 := by
  have hall : ∀ m < 256, isTokenByte m.toUInt8 = true → m < 128 := by decide +kernel
  have htoken := (n.byte_valid h).1
  apply hall b.toNat (UInt8.toNat_lt b)
  rwa [Nat.toUInt8, UInt8.ofNat_toNat]

theorem lower_bytes (n : HeaderName) : Bytes.lower n.bytes = n.bytes := by
  have hkept : ∀ b ∈ n.bytes, Bytes.lowerByte b = id b := by
    intro b hb
    have hupper := (n.byte_valid hb).2
    simp [Bytes.lowerByte, hupper]
  exact (List.map_congr_left hkept).trans (List.map_id n.bytes)

theorem length_le (n : HeaderName) : n.bytes.length ≤ maxNameLength := by
  have hvalid := n.valid
  unfold isHeaderName at hvalid
  simp only [Bool.and_eq_true, decide_eq_true_eq] at hvalid
  exact hvalid.1.2

theorem ofBytes?_bytes (n : HeaderName) : ofBytes? n.bytes = some n := by
  have hvalid : isHeaderName (Bytes.lower n.bytes) = true := by
    rw [n.lower_bytes]
    exact n.valid
  unfold ofBytes?
  rw [dif_pos hvalid]
  simp [n.lower_bytes]

theorem bytes_ne_nil (n : HeaderName) : n.bytes ≠ [] := by
  intro hnil
  have hvalid := n.valid
  rw [hnil] at hvalid
  cases hvalid

/-- The spellings of a name are those that differ from it in case at most. -/
theorem ofBytes?_eq_some_iff {raw : Bytes} {n : HeaderName} :
    ofBytes? raw = some n ↔ Bytes.lower raw = n.bytes := by
  constructor
  · intro h
    unfold ofBytes? at h
    split_ifs at h
    obtain rfl := Option.some.inj h
    rfl
  · intro h
    have hread := n.ofBytes?_bytes
    unfold ofBytes? at hread ⊢
    rw [n.lower_bytes, ← h] at hread
    exact hread

theorem lowerByte_valid (b : UInt8) :
    (isTokenByte (Bytes.lowerByte b) && !Bytes.isUpper (Bytes.lowerByte b)) = isTokenByte b := by
  cases hupper : Bytes.isUpper b with
  | false => simp [Bytes.lowerByte, hupper]
  | true =>
    have hrange : 65 ≤ b.toNat ∧ b.toNat ≤ 90 := by
      simpa [Bytes.isUpper, UInt8.le_iff_toNat_le] using hupper
    have hlower : (b + 32).toNat = b.toNat + 32 := by
      have hthirtyTwo : (32 : UInt8).toNat = 32 := rfl
      rw [UInt8.toNat_add, hthirtyTwo]
      omega
    have hsmall : Bytes.isAlphanumeric (b + 32) = true ∧ Bytes.isUpper (b + 32) = false := by
      simp [Bytes.isAlphanumeric, Bytes.isAlpha, Bytes.isUpper, UInt8.le_iff_toNat_le, hlower]
      omega
    have hcapital : Bytes.isAlphanumeric b = true := by
      simp [Bytes.isAlphanumeric, Bytes.isAlpha, UInt8.le_iff_toNat_le, hrange]
    simp [isTokenByte, Bytes.lowerByte, hupper, hsmall, hcapital]

/-- What is read as a name is a token, in any case, that is not too long. -/
theorem isSome_ofBytes?_iff {raw : Bytes} : (ofBytes? raw).isSome = true ↔
    raw ≠ [] ∧ raw.length ≤ maxNameLength ∧ ∀ b ∈ raw, isTokenByte b = true := by
  have hempty : (Bytes.lower raw).isEmpty = raw.isEmpty := List.isEmpty_map
  have hlength : (Bytes.lower raw).length = raw.length := List.length_map _
  have hall : (Bytes.lower raw).all (fun b => isTokenByte b && !Bytes.isUpper b) =
      raw.all isTokenByte := by
    unfold Bytes.lower
    rw [List.all_map]
    exact congrArg raw.all (funext lowerByte_valid)
  unfold ofBytes?
  rw [Option.isSome_dite]
  unfold isHeaderName
  rw [hempty, hlength, hall]
  simp [and_assoc]

end HeaderName

namespace HeaderValue

/-- What is read as a value has no control octet but the tab. -/
theorem isSome_ofBytes?_iff {raw : Bytes} : (ofBytes? raw).isSome = true ↔
    ∀ b ∈ raw, b < 32 ∨ b = 127 → b = 9 := by
  have hvalue (b : UInt8) : isValueByte b = true ↔ (b < 32 ∨ b = 127 → b = 9) := by
    unfold isValueByte
    rw [← UInt8.not_le]
    simp only [Bool.or_eq_true, Bool.and_eq_true, decide_eq_true_eq, bne_iff_ne, beq_iff_eq]
    tauto
  unfold ofBytes?
  rw [Option.isSome_dite, List.all_eq_true]
  exact forall₂_congr fun b _ => hvalue b

theorem eq_of_ofBytes?_eq_some {raw : Bytes} {v : HeaderValue} (h : ofBytes? raw = some v) :
    v.bytes = raw := by
  unfold ofBytes? at h
  split_ifs at h
  obtain rfl := Option.some.inj h
  rfl

theorem ofBytes?_bytes (v : HeaderValue) : ofBytes? v.bytes = some v := by
  unfold ofBytes?
  rw [dif_pos v.valid]

theorem text?_eq_some_iff {v : HeaderValue} {text : Bytes} :
    v.text? = some text ↔ v.isReadable = true ∧ v.bytes = text := by
  unfold text?
  rw [Option.ite_none_right_eq_some, Option.some.injEq]

end HeaderValue

namespace Headers

theorem ext {g h : Headers} (heq : g.groups = h.groups) : g = h := by
  cases g
  cases h
  simpa using heq

theorem upsertGroups_of_not_mem {n : HeaderName} {f : List HeaderValue → List HeaderValue}
    {gs : List (HeaderName × List HeaderValue)} (h : n ∉ gs.map Prod.fst) :
    upsertGroups n f gs = gs ++ [(n, f [])] := by
  induction gs with
  | nil => rfl
  | cons g rest ih =>
    simp only [List.map_cons, List.mem_cons, not_or] at h
    simp [upsertGroups, Ne.symm h.1, ih h.2]

theorem upsertGroups_append {n : HeaderName} {f : List HeaderValue → List HeaderValue}
    {gs : List (HeaderName × List HeaderValue)} (h : n ∉ gs.map Prod.fst) (vs : List HeaderValue) :
    upsertGroups n f (gs ++ [(n, vs)]) = gs ++ [(n, f vs)] := by
  induction gs with
  | nil => simp [upsertGroups]
  | cons g rest ih =>
    simp only [List.map_cons, List.mem_cons, not_or] at h
    simp [upsertGroups, Ne.symm h.1, ih h.2]

/-- Further lines of the last name join its values. -/
theorem groups_appendFields_last {n : HeaderName} {gs : List (HeaderName × List HeaderValue)}
    (hn : n ∉ gs.map Prod.fst) {h : Headers} {vs : List HeaderValue}
    (hh : h.groups = gs ++ [(n, vs)]) (ws : List HeaderValue) :
    (h.appendFields (ws.map (n, ·))).groups = gs ++ [(n, vs ++ ws)] := by
  induction ws generalizing h vs with
  | nil => simpa [appendFields] using hh
  | cons w ws ih =>
    have hnext : (h.append n w).groups = gs ++ [(n, vs ++ [w])] := by
      change upsertGroups n (· ++ [w]) h.groups = _
      rw [hh, upsertGroups_append hn]
    have hrest := ih hnext
    rw [List.append_assoc] at hrest
    exact hrest

/-- The lines of a name that is not there yet make up its group. -/
theorem groups_appendFields_new {n : HeaderName} {h : Headers}
    (hn : n ∉ h.groups.map Prod.fst) {vs : List HeaderValue} (hvs : vs ≠ []) :
    (h.appendFields (vs.map (n, ·))).groups = h.groups ++ [(n, vs)] := by
  cases vs with
  | nil => exact absurd rfl hvs
  | cons v vs =>
    have hfirst : (h.append n v).groups = h.groups ++ [(n, [v])] := by
      change upsertGroups n (· ++ [v]) h.groups = _
      exact upsertGroups_of_not_mem hn
    exact groups_appendFields_last hn hfirst vs

theorem appendFields_append (h : Headers) (fs gs : List (HeaderName × HeaderValue)) :
    h.appendFields (fs ++ gs) = (h.appendFields fs).appendFields gs := by
  unfold appendFields
  exact List.foldl_append

theorem groups_appendFields_flatMap {gs : List (HeaderName × List HeaderValue)} {h : Headers}
    (hnodup : ((h.groups ++ gs).map Prod.fst).Nodup) (hnonempty : ∀ g ∈ gs, g.2 ≠ []) :
    (h.appendFields (gs.flatMap fun (n, vs) => vs.map (n, ·))).groups = h.groups ++ gs := by
  induction gs generalizing h with
  | nil => simp [appendFields]
  | cons g gs ih =>
    obtain ⟨n, vs⟩ := g
    have hn : n ∉ h.groups.map Prod.fst := by
      simp only [List.map_append, List.map_cons, List.nodup_append] at hnodup
      exact fun hmem => hnodup.2.2 n hmem n List.mem_cons_self rfl
    have hfirst := groups_appendFields_new hn (hnonempty (n, vs) List.mem_cons_self)
    rw [List.flatMap_cons, appendFields_append]
    have hrest := ih (h := h.appendFields (vs.map (n, ·))) (by rw [hfirst]; simpa using hnodup)
      fun g hg => hnonempty g (List.mem_cons_of_mem _ hg)
    rw [hrest, hfirst]
    simp

theorem ofFields_fields (h : Headers) : ofFields h.fields = h := by
  apply ext
  have hnodup : (((∅ : Headers).groups ++ h.groups).map Prod.fst).Nodup := h.nodup
  exact groups_appendFields_flatMap hnodup h.nonempty

/-- Appending field lines adds, for each name, the values that they have for it. -/
theorem values_appendFields (h : Headers) (fs : List (HeaderName × HeaderValue)) (n : HeaderName) :
    (h.appendFields fs).values n = h.values n ++ (fs.filter (·.1 = n)).map (·.2) := by
  induction fs generalizing h with
  | nil => simp [appendFields]
  | cons f fs ih =>
    have hnext : h.appendFields (f :: fs) = (h.append f.1 f.2).appendFields fs := rfl
    rw [hnext, ih, values_append]
    by_cases hn : f.1 = n
    · simp [hn]
    · simp [hn, Ne.symm hn]

/-- The field lines of a name hold its values. -/
theorem values_fields (h : Headers) (n : HeaderName) :
    (h.fields.filter (·.1 = n)).map (·.2) = h.values n := by
  have hbuilt := values_appendFields ∅ h.fields n
  have hsame : (∅ : Headers).appendFields h.fields = h := ofFields_fields h
  rw [hsame, values_empty, List.nil_append] at hbuilt
  exact hbuilt.symm

/-- One more line stands among the others, with those of its name. -/
theorem perm_fields_append (h : Headers) (n : HeaderName) (v : HeaderValue) :
    (h.append n v).fields.Perm (h.fields ++ [(n, v)]) := by
  unfold append fields
  dsimp only
  induction h.groups with
  | nil => exact .refl _
  | cons g rest ih =>
    obtain ⟨m, vs⟩ := g
    unfold upsertGroups
    split_ifs with hm
    · subst hm
      simp only [List.flatMap_cons, List.map_append, List.map_cons, List.map_nil,
        List.append_assoc]
      exact List.perm_append_comm.append_left _
    · simp only [List.flatMap_cons, List.append_assoc]
      exact ih.append_left _

theorem perm_fields_appendFields (h : Headers) (fs : List (HeaderName × HeaderValue)) :
    (h.appendFields fs).fields.Perm (h.fields ++ fs) := by
  induction fs generalizing h with
  | nil => simp [appendFields]
  | cons f fs ih =>
    have hrest := (perm_fields_append h f.1 f.2).append_right fs
    rw [List.append_assoc] at hrest
    exact (ih (h.append f.1 f.2)).trans hrest

/-- Header sections keep all lines that they are built from. -/
theorem perm_fields_ofFields (fs : List (HeaderName × HeaderValue)) :
    (ofFields fs).fields.Perm fs := perm_fields_appendFields ∅ fs

theorem sublist_fields_erase (h : Headers) (n : HeaderName) :
    (h.erase n).fields.Sublist h.fields :=
  List.filter_sublist.flatMap _

theorem erase_erase (h : Headers) (n : HeaderName) : (h.erase n).erase n = h.erase n := by
  apply ext
  change (h.groups.filter _).filter _ = h.groups.filter _
  rw [List.filter_filter]
  simp

theorem names_erase (h : Headers) (n : HeaderName) :
    (h.erase n).names = h.names.filter (· != n) := by
  change (h.groups.filter ((· != n) ∘ Prod.fst)).map Prod.fst = _
  exact List.filter_map.symm

theorem mem_keys_iff_lookup {gs : List (HeaderName × List HeaderValue)} {n : HeaderName}
    (hgs : ∀ g ∈ gs, g.2 ≠ []) : n ∈ gs.map Prod.fst ↔ (gs.lookup n).getD [] ≠ [] := by
  induction gs with
  | nil => simp
  | cons g rest ih =>
    have hrest := ih fun g hg => hgs g (List.mem_cons_of_mem _ hg)
    have hfirst : g.2 ≠ [] := hgs g List.mem_cons_self
    rw [List.map_cons, List.mem_cons, List.lookup_cons]
    by_cases hn : n = g.1
    · simp [hn, hfirst]
    · have hother : (n == g.1) = false := beq_eq_false_iff_ne.mpr hn
      simp [hn, hother, hrest]

theorem mem_names_iff {h : Headers} {n : HeaderName} : n ∈ h.names ↔ h.contains n = true := by
  rw [contains_iff]
  exact mem_keys_iff_lookup h.nonempty

/-- Names that are erased one after the other are left out together. -/
theorem foldl_erase (ns : List HeaderName) (h : Headers) :
    ns.foldl erase h = h.filter fun n => !ns.contains n := by
  induction ns generalizing h with
  | nil =>
    apply ext
    simp [filter]
  | cons n ns ih =>
    rw [List.foldl_cons, ih]
    apply ext
    show (h.groups.filter fun g => g.1 != n).filter _ = h.groups.filter _
    rw [List.filter_filter]
    apply List.filter_congr
    intro g _
    simp [Bool.and_comm, bne, beq_eq_decide]

theorem foldl_erase_names (g h : Headers) :
    g.names.foldl erase h = h.filter fun n => !g.contains n := by
  rw [foldl_erase]
  apply ext
  apply List.filter_congr
  intro group _
  rw [Bool.eq_iff_iff]
  simp [mem_names_iff]

/-- Lines without a name are of the name before them. -/
theorem appendDrained_unnamed (h : Headers) (n : HeaderName) (vs : List HeaderValue)
    (rest : List (Option HeaderName × HeaderValue)) :
    h.appendDrained (some n) (vs.map (none, ·) ++ rest) =
      (h.appendFields (vs.map (n, ·))).appendDrained (some n) rest := by
  induction vs generalizing h with
  | nil => rfl
  | cons v vs ih => exact ih (h.append n v)

theorem appendDrained_flatMap {gs : List (HeaderName × List HeaderValue)} (h : Headers)
    (last : Option HeaderName) (hgs : ∀ g ∈ gs, g.2 ≠ []) :
    h.appendDrained last (gs.flatMap drainedGroup) =
      h.appendFields (gs.flatMap fun (n, vs) => vs.map (n, ·)) := by
  induction gs generalizing h last with
  | nil => rfl
  | cons group rest ih =>
    obtain ⟨n, vs⟩ := group
    cases vs with
    | nil => exact absurd rfl (hgs (n, []) List.mem_cons_self)
    | cons v vs =>
      have hfirst := appendDrained_unnamed (h.append n v) n vs (rest.flatMap drainedGroup)
      have hrest := ih ((h.append n v).appendFields (vs.map (n, ·))) (some n)
        fun g hg => hgs g (List.mem_cons_of_mem _ hg)
      rw [List.flatMap_cons, List.flatMap_cons, appendFields_append]
      exact hfirst.trans hrest

/-- What is taken out of one section and appended to another comes with all its names. -/
theorem appendDrained_drained (h g : Headers) :
    h.appendDrained none g.drained = h.appendFields g.fields :=
  appendDrained_flatMap h none g.nonempty

end Headers

end Gateway.Http
