import Gateway.Proofs.Text.Elements
import Gateway.Proofs.Text.Utf8
import Gateway.Query

/-! How parameters are spelled in a query. Each has many spellings, which all read alike; what is
written is one of them, so it is read back. -/
namespace Gateway.Query

open Text.Utf8

def digits? (h l : UInt8) : Option UInt8 := do
  let hi ← Bytes.hexValue? (Char.ofNat h.toNat)
  let lo ← Bytes.hexValue? (Char.ofNat l.toNat)
  some (hi * 16 + lo).toUInt8

/-- A spelling of octets: a plus sign stands for a space, a percent sign with two digits for the
octet that they denote, and anything else but an ampersand for itself. -/
inductive Spells : Bytes → Bytes → Prop
  | nil : Spells [] []
  | literal {b : UInt8} {s c : Bytes} (hb : b ∉ ([37, 38, 43] : Bytes)) (hs : Spells s c) :
    Spells (b :: s) (b :: c)
  | plus {s c : Bytes} (hs : Spells s c) : Spells (43 :: s) (32 :: c)
  | digits {h l b : UInt8} {s c : Bytes} (hb : digits? h l = some b) (hs : Spells s c) :
    Spells (37 :: h :: l :: s) (b :: c)
  | percent {s c : Bytes} (hnone : ∀ h l rest, s = h :: l :: rest → digits? h l = none)
    (hs : Spells s c) : Spells (37 :: s) (37 :: c)

/-- A spelling of a parameter. The equals sign may be left out in front of an empty value, unless the
name is empty too. -/
inductive SpellsParam : Bytes → Bytes × Bytes → Prop
  | pair {s n t v : Bytes} (hequals : 61 ∉ s) (hs : Spells s n) (ht : Spells t v) :
    SpellsParam (s ++ 61 :: t) (n, v)
  | name {s n : Bytes} (hne : s ≠ []) (hequals : 61 ∉ s) (hs : Spells s n) : SpellsParam s (n, [])

/-! ### Octets -/

def spaced (b : UInt8) : UInt8 := if b == 43 then 32 else b

theorem unescape_eq (bs : Bytes) : unescape bs = percentDecode (bs.map spaced) := rfl

/-- A plus sign is no digit, and neither is a space. -/
theorem digits?_spaced (h l : UInt8) : digits? (spaced h) (spaced l) = digits? h l := by
  have hsame : ∀ b, Bytes.hexValue? (Char.ofNat (spaced b).toNat) =
      Bytes.hexValue? (Char.ofNat b.toNat) := forall_octet (by decide +kernel)
  unfold digits?
  rw [hsame, hsame]

theorem percentDecode_of_ne {b : UInt8} (hb : b ≠ 37) (rest : Bytes) :
    percentDecode (b :: rest) = b :: percentDecode rest := by
  rw [percentDecode]
  intro h l tail heq
  exact absurd heq hb

theorem percentDecode_digits (h l : UInt8) (rest : Bytes) :
    percentDecode (37 :: h :: l :: rest) =
      match digits? h l with
      | some b => b :: percentDecode rest
      | none => 37 :: percentDecode (h :: l :: rest) := by
  rw [percentDecode]
  unfold digits?
  cases Bytes.hexValue? (Char.ofNat h.toNat) with
  | none => rfl
  | some hi => cases Bytes.hexValue? (Char.ofNat l.toNat) <;> rfl

theorem percentDecode_percent {s : Bytes}
    (hnone : ∀ h l rest, s = h :: l :: rest → digits? h l = none) :
    percentDecode (37 :: s) = 37 :: percentDecode s := by
  match s with
  | [] => rfl
  | [_] => rfl
  | h :: l :: rest => rw [percentDecode_digits, hnone h l rest rfl]

theorem unescape_of_spells {s c : Bytes} (h : Spells s c) : unescape s = c := by
  induction h with
  | nil => rfl
  | @literal b s c hb hs ih =>
    have hplain : spaced b = b := if_neg fun heq => by simp [beq_iff_eq.mp heq] at hb
    have hpercent : b ≠ 37 := fun heq => by simp [heq] at hb
    rw [unescape_eq, List.map_cons, hplain, percentDecode_of_ne hpercent, ← unescape_eq, ih]
  | plus hs ih =>
    rw [unescape_eq, List.map_cons, show spaced 43 = 32 from rfl, percentDecode_of_ne (by decide),
      ← unescape_eq, ih]
  | @digits h l b s c hb hs ih =>
    rw [unescape_eq, List.map_cons, List.map_cons, List.map_cons, show spaced 37 = 37 from rfl,
      percentDecode_digits, digits?_spaced, hb, ← unescape_eq, ih]
  | @percent s c hnone hs ih =>
    have hnone' : ∀ h l rest, s.map spaced = h :: l :: rest → digits? h l = none := by
      intro h l rest heq
      obtain ⟨h', s', rfl, rfl, hs'⟩ := List.map_eq_cons_iff.mp heq
      obtain ⟨l', rest', rfl, rfl, -⟩ := List.map_eq_cons_iff.mp hs'
      rw [digits?_spaced]
      exact hnone h' l' rest' rfl
    rw [unescape_eq, List.map_cons, show spaced 37 = 37 from rfl, percentDecode_percent hnone',
      ← unescape_eq, ih]

/-- An ampersand is no digit. -/
theorem not_mem_of_spells {s c : Bytes} (h : Spells s c) : 38 ∉ s := by
  have hdigit : ∀ b, (digits? 38 b).isSome = false ∧ (digits? b 38).isSome = false :=
    forall_octet (by decide +kernel)
  induction h with
  | nil => exact List.not_mem_nil
  | literal hb hs ih =>
    rw [List.mem_cons, not_or]
    exact ⟨fun heq => by simp [← heq] at hb, ih⟩
  | plus hs ih => simpa using ih
  | @digits h l b s c hb hs ih =>
    have hh : 38 ≠ h := fun heq => by simpa [heq ▸ hb] using (hdigit l).1
    have hl : 38 ≠ l := fun heq => by simpa [heq ▸ hb] using (hdigit h).2
    simp [hh, hl, ih]
  | percent hnone hs ih => simpa using ih

/-! ### What is written -/

theorem spells_escapeByte (b : UInt8) {s c : Bytes} (h : Spells s c) :
    Spells (escapeByte b ++ s) (b :: c) := by
  have hplain : ∀ b, (Bytes.isAlphanumeric b || b == 42 || b == 45 || b == 46 || b == 95) = true →
      b ∉ ([37, 38, 43] : Bytes) := forall_octet (by decide +kernel)
  have hdigits : ∀ b, digits? (upperHexDigit (b.toNat / 16)) (upperHexDigit (b.toNat % 16)) =
      some b := forall_octet (by decide +kernel)
  unfold escapeByte
  split_ifs with hliteral hspace
  · exact .literal (hplain b hliteral) h
  · obtain rfl := beq_iff_eq.mp hspace
    exact .plus h
  · exact .digits (hdigits b) h

theorem spells_escape (cs : List Char) : Spells (escape cs) (encodeChars cs) := by
  unfold escape
  induction encodeChars cs with
  | nil => exact .nil
  | cons b bs ih => exact spells_escapeByte b ih

/-- What no octet is escaped with is in no escaped text. -/
theorem not_mem_escape {c : UInt8} (h : ∀ b, c ∉ escapeByte b) (cs : List Char) :
    c ∉ escape cs := by
  intro hmem
  obtain ⟨b, -, hb⟩ := List.mem_flatMap.mp hmem
  exact h b hb

theorem equals_not_mem_escape (cs : List Char) : 61 ∉ escape cs :=
  not_mem_escape (forall_octet (by decide +kernel)) cs

theorem spellsParam_writeParam (p : Param) :
    SpellsParam (writeParam p) (encodeChars p.1, encodeChars p.2) :=
  .pair (equals_not_mem_escape p.1) (spells_escape p.1) (spells_escape p.2)

/-! ### Queries -/

def paramOf (octets : Bytes × Bytes) : Param := (decodeLossy octets.1, decodeLossy octets.2)

theorem parse_eq (query : Bytes) : parse query = (octetPairs query).map paramOf := rfl

theorem octetPairs_of_part {x : Bytes} (hampersand : 38 ∉ x) (hne : x ≠ []) {s t : Bytes}
    (hcut : (Bytes.splitFirst? 61 x).getD (x, []) = (s, t)) :
    octetPairs x = [(unescape s, unescape t)] := by
  unfold octetPairs rawPairs
  simp [Bytes.splitOn_of_not_mem hampersand, hne, hcut]

theorem octetPairs_of_spellsParam {x : Bytes} {p : Bytes × Bytes} (h : SpellsParam x p) :
    octetPairs x = [p] := by
  cases h with
  | @pair s n t v hequals hs ht =>
    have hampersand : 38 ∉ s ++ 61 :: t := by
      simp [not_mem_of_spells hs, not_mem_of_spells ht]
    have hne : s ++ 61 :: t ≠ [] := List.append_ne_nil_of_right_ne_nil s (List.cons_ne_nil 61 t)
    have hcut : (Bytes.splitFirst? 61 (s ++ 61 :: t)).getD (s ++ 61 :: t, []) = (s, t) := by
      rw [Bytes.splitFirst?_append hequals, Option.getD_some]
    rw [octetPairs_of_part hampersand hne hcut, unescape_of_spells hs, unescape_of_spells ht]
  | @name s n hne hequals hs =>
    have hcut : (Bytes.splitFirst? 61 x).getD (x, []) = (x, []) := by
      rw [Bytes.splitFirst?_of_not_mem hequals, Option.getD_none]
    rw [octetPairs_of_part (not_mem_of_spells hs) hne hcut, unescape_of_spells hs]
    rfl

def joined (parts : List Bytes) : Bytes := [38].intercalate parts

/-- The parts of a query are read one by one. -/
theorem octetPairs_joined (parts : List Bytes) :
    octetPairs (joined parts) = parts.flatMap octetPairs := by
  by_cases hparts : parts = []
  · rw [hparts]
    rfl
  · unfold octetPairs rawPairs joined
    rw [Bytes.splitOn_intercalate 38 hparts, List.filter_flatMap, List.map_flatMap,
      List.map_flatMap]

theorem parse_joined (parts : List Bytes) : parse (joined parts) = parts.flatMap parse := by
  rw [parse_eq, octetPairs_joined, List.map_flatMap]
  rfl

theorem parse_writeParam (p : Param) : parse (writeParam p) = [p] := by
  rw [parse_eq, octetPairs_of_spellsParam (spellsParam_writeParam p), List.map_singleton, paramOf,
    decodeLossy_encodeChars, decodeLossy_encodeChars]

theorem write_eq (ps : List Param) : write ps = joined (ps.map writeParam) := by
  unfold joined
  induction ps with
  | nil => rfl
  | cons p rest ih =>
    cases rest with
    | nil => rw [write, List.map_singleton, List.intercalate_singleton]
    | cons q rest =>
      simp only [List.map_cons] at ih ⊢
      rw [write, ih, List.intercalate_cons_cons, List.append_assoc, List.singleton_append]
      exact List.cons_ne_nil q rest

/-- What is written is read back. -/
theorem parse_write (ps : List Param) : parse (write ps) = ps := by
  rw [write_eq, parse_joined, List.flatMap_map]
  simp only [parse_writeParam, List.flatMap_singleton']

end Gateway.Query
