import Gateway.Proofs.Text.Octets

/-! UTF-8 is read back as it was written, and nothing else is read; so it can be put together, and
taken apart wherever ASCII stands. -/
namespace Gateway.Text.Utf8

variable {c : Char} {cs : List Char} {b : UInt8} {as bs : Bytes}

/-- A character's number lies beside the surrogates. -/
theorem toNat_char (c : Char) :
    c.toNat < 0xD800 ∨ 0xE000 ≤ c.toNat ∧ c.toNat < 0x110000 := by
  rcases c.valid with hlow | ⟨hlow, hhigh⟩
  · exact .inl hlow
  · exact .inr ⟨hlow, hhigh⟩

theorem toNat_ofNat {n : Nat} (h : n < 0xD800 ∨ 0xE000 ≤ n ∧ n < 0x110000) :
    (Char.ofNat n).toNat = n := by
  have hvalid : n.isValidChar := h.imp id fun ⟨hlow, hhigh⟩ => ⟨hlow, hhigh⟩
  have hchar : Char.ofNat n = Char.ofNatAux n hvalid := dif_pos hvalid
  rw [hchar]
  rfl

theorem toUInt8_eq {n : Nat} (h : n = b.toNat) : n.toUInt8 = b := by
  rw [h, Nat.toUInt8_eq, UInt8.ofNat_toNat]

theorem inRange_iff {lo hi : Nat} : inRange lo hi b = true ↔ lo ≤ b.toNat ∧ b.toNat ≤ hi := by
  unfold inRange
  rw [Bool.and_eq_true, decide_eq_true_eq, decide_eq_true_eq]

/-- The bounds of a second octet, as far as they matter for the lead octet. -/
theorem secondRange_spec (lead : Nat) :
    0x80 ≤ (secondRange lead).1 ∧ (secondRange lead).2 ≤ 0xBF ∧
      (lead = 0xE0 → (secondRange lead).1 = 0xA0) ∧ (lead = 0xED → (secondRange lead).2 = 0x9F) ∧
      (lead = 0xF0 → (secondRange lead).1 = 0x90) ∧ (lead = 0xF4 → (secondRange lead).2 = 0x8F) ∧
      (lead ≠ 0xE0 → lead ≠ 0xF0 → (secondRange lead).1 = 0x80) ∧
      (lead ≠ 0xED → lead ≠ 0xF4 → (secondRange lead).2 = 0xBF) := by
  unfold secondRange
  split_ifs with h1 h2 h3 h4
  · subst h1; decide
  · subst h2; decide
  · subst h3; decide
  · subst h4; decide
  · simp [h1, h2, h3, h4]

/-- Reading a character undoes writing it, whatever follows. -/
theorem next_encodeChar (c : Char) (rest : Bytes) :
    ∃ b bs, encodeChar c = b :: bs ∧ next b (bs ++ rest) = (some c, rest) := by
  have hvalid := toNat_char c
  have hc : Char.ofNat c.toNat = c := Char.ofNat_toNat c
  generalize hn : c.toNat = n at hvalid hc
  have htail (m : Nat) : (0x80 + m % 64).toUInt8.toNat = 0x80 + m % 64 := toNat_toUInt8 (by omega)
  have hcontinues (m : Nat) : continues (0x80 + m % 64).toUInt8 = true := by
    apply inRange_iff.mpr
    have hm := htail m
    omega
  unfold encodeChar
  dsimp only
  rw [hn]
  split_ifs with h1 h2 h3
  · refine ⟨_, _, rfl, ?_⟩
    unfold next
    dsimp only
    rw [toNat_toUInt8 (by omega), if_pos h1, hc]
    rfl
  · refine ⟨_, _, rfl, ?_⟩
    have hlead : (0xC0 + n / 64).toUInt8.toNat = 0xC0 + n / 64 := toNat_toUInt8 (by omega)
    have hnumber : (0xC0 + n / 64 - 0xC0) * 64 + (0x80 + n % 64 - 0x80) = n := by omega
    unfold next
    dsimp only [List.cons_append, List.nil_append]
    rw [hlead, if_neg (by omega), if_neg (by omega), if_pos (by omega), if_pos (hcontinues n),
      htail, hnumber, hc]
  · refine ⟨_, _, rfl, ?_⟩
    have hlead : (0xE0 + n / 4096).toUInt8.toNat = 0xE0 + n / 4096 := toNat_toUInt8 (by omega)
    have hnumber : (0xE0 + n / 4096 - 0xE0) * 4096 + (0x80 + n / 64 % 64 - 0x80) * 64 +
        (0x80 + n % 64 - 0x80) = n := by omega
    have hsecond : inRange (secondRange (0xE0 + n / 4096)).1 (secondRange (0xE0 + n / 4096)).2
        (0x80 + n / 64 % 64).toUInt8 = true := by
      have hspec := secondRange_spec (0xE0 + n / 4096)
      rw [inRange_iff, htail]
      omega
    unfold next
    dsimp only [List.cons_append, List.nil_append]
    rw [hlead, if_neg (by omega), if_neg (by omega), if_neg (by omega), if_pos (by omega),
      if_pos hsecond, if_pos (hcontinues n), htail, htail, hnumber, hc]
  · refine ⟨_, _, rfl, ?_⟩
    have hlead : (0xF0 + n / 262144).toUInt8.toNat = 0xF0 + n / 262144 := toNat_toUInt8 (by omega)
    have hnumber : (0xF0 + n / 262144 - 0xF0) * 262144 + (0x80 + n / 4096 % 64 - 0x80) * 4096 +
        (0x80 + n / 64 % 64 - 0x80) * 64 + (0x80 + n % 64 - 0x80) = n := by omega
    have hsecond : inRange (secondRange (0xF0 + n / 262144)).1 (secondRange (0xF0 + n / 262144)).2
        (0x80 + n / 4096 % 64).toUInt8 = true := by
      have hspec := secondRange_spec (0xF0 + n / 262144)
      rw [inRange_iff, htail]
      omega
    unfold next
    dsimp only [List.cons_append, List.nil_append]
    rw [hlead, if_neg (by omega), if_neg (by omega), if_neg (by omega), if_neg (by omega),
      if_pos (by omega), if_pos hsecond, if_pos (hcontinues _), if_pos (hcontinues n), htail, htail,
      htail, hnumber, hc]

/-- What is read as a character is how that character is written. -/
theorem encodeChar_of_next {rest after : Bytes} (h : next b rest = (some c, after)) :
    b :: rest = encodeChar c ++ after := by
  have hspec := secondRange_spec b.toNat
  unfold next at h
  dsimp only at h
  split_ifs at h with h1 h2 h3 h4 h5
  · obtain ⟨hc, rfl⟩ := Prod.mk.inj h
    obtain rfl := Option.some.inj hc
    unfold encodeChar
    dsimp only
    rw [toNat_ofNat (by omega), if_pos h1, toUInt8_eq rfl]
    rfl
  · cases (Prod.mk.inj h).1
  · split at h
    · rename_i d tail
      split_ifs at h with hd
      · obtain ⟨hc, rfl⟩ := Prod.mk.inj h
        obtain rfl := Option.some.inj hc
        have hd := inRange_iff.mp hd
        unfold encodeChar
        dsimp only
        rw [toNat_ofNat (by omega), if_neg (by omega), if_pos (by omega),
          toUInt8_eq (b := b) (by omega), toUInt8_eq (b := d) (by omega)]
        rfl
      · cases (Prod.mk.inj h).1
    · cases (Prod.mk.inj h).1
  · split at h
    · rename_i d e tail
      split_ifs at h with hd he
      · obtain ⟨hc, rfl⟩ := Prod.mk.inj h
        obtain rfl := Option.some.inj hc
        have hd := inRange_iff.mp hd
        have he := inRange_iff.mp he
        unfold encodeChar
        dsimp only
        rw [toNat_ofNat (by omega), if_neg (by omega), if_neg (by omega), if_pos (by omega),
          toUInt8_eq (b := b) (by omega), toUInt8_eq (b := d) (by omega),
          toUInt8_eq (b := e) (by omega)]
        rfl
      · cases (Prod.mk.inj h).1
      · cases (Prod.mk.inj h).1
    · split_ifs at h <;> cases (Prod.mk.inj h).1
    · cases (Prod.mk.inj h).1
  · split at h
    · rename_i d e f tail
      split_ifs at h with hd he hf
      · obtain ⟨hc, rfl⟩ := Prod.mk.inj h
        obtain rfl := Option.some.inj hc
        have hd := inRange_iff.mp hd
        have he := inRange_iff.mp he
        have hf := inRange_iff.mp hf
        unfold encodeChar
        dsimp only
        rw [toNat_ofNat (by omega), if_neg (by omega), if_neg (by omega), if_neg (by omega),
          toUInt8_eq (b := b) (by omega), toUInt8_eq (b := d) (by omega),
          toUInt8_eq (b := e) (by omega), toUInt8_eq (b := f) (by omega)]
        rfl
      · cases (Prod.mk.inj h).1
      · cases (Prod.mk.inj h).1
      · cases (Prod.mk.inj h).1
    · split_ifs at h <;> cases (Prod.mk.inj h).1
    · split_ifs at h <;> cases (Prod.mk.inj h).1
    · cases (Prod.mk.inj h).1
  · cases (Prod.mk.inj h).1

theorem decode?_encodeChars (cs : List Char) : decode? (encodeChars cs) = some cs := by
  induction cs with
  | nil => simp [decode?, encodeChars]
  | cons c cs ih =>
    obtain ⟨b, bs, hwritten, hread⟩ := next_encodeChar c (encodeChars cs)
    have hcons : encodeChars (c :: cs) = b :: (bs ++ encodeChars cs) := by
      rw [encodeChars, List.flatMap_cons, hwritten]
      rfl
    rw [hcons, decode?, hread]
    dsimp only
    rw [ih]
    rfl

theorem encodeChars_of_decode? (h : decode? bs = some cs) : encodeChars cs = bs := by
  fun_induction decode? bs generalizing cs with
  | case1 =>
    obtain rfl := Option.some.inj h
    rfl
  | case2 b rest c hnext ih =>
    obtain ⟨cs, hrest, rfl⟩ := Option.map_eq_some_iff.mp h
    have hread : next b rest = (some c, (next b rest).2) := Prod.ext hnext rfl
    have hchar := encodeChar_of_next hread
    rw [hchar, encodeChars, List.flatMap_cons]
    exact congrArg _ (ih hrest)
  | case3 => cases h

theorem decode?_eq_some_iff : decode? bs = some cs ↔ encodeChars cs = bs := by
  constructor
  · exact encodeChars_of_decode?
  · rintro rfl
    exact decode?_encodeChars cs

theorem decodeLossy_of_decode? (h : decode? bs = some cs) : decodeLossy bs = cs := by
  fun_induction decode? bs generalizing cs with
  | case1 =>
    obtain rfl := Option.some.inj h
    rw [decodeLossy]
  | case2 b rest c hnext ih =>
    obtain ⟨cs, hrest, rfl⟩ := Option.map_eq_some_iff.mp h
    rw [decodeLossy, hnext, ih hrest]
    rfl
  | case3 => cases h

theorem decodeLossy_encodeChars (cs : List Char) : decodeLossy (encodeChars cs) = cs :=
  decodeLossy_of_decode? (decode?_encodeChars cs)

/-- UTF-8 octets are told by the text they denote. -/
theorem encodeChars_decodeLossy (h : (decode? bs).isSome = true) :
    encodeChars (decodeLossy bs) = bs := by
  obtain ⟨cs, hcs⟩ := Option.isSome_iff_exists.mp h
  rw [decodeLossy_of_decode? hcs, encodeChars_of_decode? hcs]

/-- Only what is not UTF-8 is marked; the mark may be written, too. -/
theorem isSome_decode?_of_unmarked (h : replacement ∉ decodeLossy bs) :
    (decode? bs).isSome = true := by
  fun_induction decodeLossy bs with
  | case1 => rw [decode?, Option.isSome_some]
  | case2 b rest ih =>
    rw [List.mem_cons, not_or] at h
    obtain ⟨hfirst, hrest⟩ := h
    rw [decode?]
    cases hnext : (next b rest).1 with
    | none =>
      rw [hnext] at hfirst
      exact absurd rfl hfirst
    | some c =>
      rw [Option.isSome_map]
      exact ih hrest

theorem isSome_decode?_iff : (decode? bs).isSome = true ↔ ∃ cs, encodeChars cs = bs := by
  simp only [Option.isSome_iff_exists, decode?_eq_some_iff]

theorem isSome_decode?_of_ascii (h : ∀ b ∈ bs, b.toNat < 0x80) : (decode? bs).isSome = true := by
  have hascii : ∀ c ∈ charsOf bs, c.toNat < 0x80 := by
    intro c hc
    obtain ⟨b, hb, rfl⟩ := List.mem_map.mp hc
    rw [toNat_charOf]
    exact h b hb
  have hsame : (charsOf bs).map (·.toNat.toUInt8) = bs := by
    have hoctet : ∀ b ∈ bs, ((·.toNat.toUInt8) ∘ charOf) b = id b := by
      intro b hb
      exact toUInt8_eq (toNat_charOf b)
    rw [charsOf, List.map_map, List.map_congr_left hoctet, List.map_id]
  apply isSome_decode?_iff.mpr
  exact ⟨charsOf bs, (encodeChars_of_ascii hascii).trans hsame⟩

theorem isSome_decode?_append (has : (decode? as).isSome = true)
    (hbs : (decode? bs).isSome = true) : (decode? (as ++ bs)).isSome = true := by
  obtain ⟨cs, rfl⟩ := isSome_decode?_iff.mp has
  obtain ⟨ds, rfl⟩ := isSome_decode?_iff.mp hbs
  exact isSome_decode?_iff.mpr ⟨cs ++ ds, List.flatMap_append⟩

/-- Characters beyond ASCII are written in octets beyond ASCII. -/
theorem ascii_of_mem_encodeChar (hb : b ∈ encodeChar c) (hascii : b.toNat < 0x80) :
    encodeChar c = [b] := by
  have hmax := toNat_char c
  unfold encodeChar at hb ⊢
  dsimp only at hb ⊢
  split_ifs at hb ⊢ with h1 h2 h3
  · rw [List.mem_singleton.mp hb]
  all_goals
    exfalso
    simp only [List.mem_cons, List.not_mem_nil, or_false] at hb
    rcases hb with rfl | rfl | rfl | rfl
    all_goals
      rw [toNat_toUInt8 (by omega)] at hascii
      omega

/-- An ASCII octet is a character of its own, with whole characters on both sides. -/
theorem encodeChars_split (h : encodeChars cs = as ++ b :: bs) (hascii : b.toNat < 0x80) :
    ∃ front back, encodeChars front = as ∧ encodeChars back = bs := by
  induction cs generalizing as with
  | nil =>
    have hne : as ++ b :: bs ≠ [] := List.append_ne_nil_of_right_ne_nil as (List.cons_ne_nil b bs)
    exact absurd h.symm hne
  | cons c cs ih =>
    rw [encodeChars, List.flatMap_cons] at h
    rcases List.append_eq_append_iff.mp h with ⟨rest, rfl, hrest⟩ | ⟨rest, hchar, hrest⟩
    · obtain ⟨front, back, rfl, hback⟩ := ih hrest
      exact ⟨c :: front, back, List.flatMap_cons, hback⟩
    · cases rest with
      | nil =>
        rw [List.append_nil] at hchar
        have hwhole : encodeChars cs = [] ++ b :: bs := hrest.symm
        obtain ⟨front, back, hfront, hback⟩ := ih hwhole
        refine ⟨c :: front, back, ?_, hback⟩
        rw [encodeChars, List.flatMap_cons, hchar, ← encodeChars, hfront, List.append_nil]
      | cons d rest =>
        obtain ⟨rfl, hrest⟩ := List.cons.inj hrest
        have hb : b ∈ encodeChar c := hchar ▸ List.mem_append_right as List.mem_cons_self
        have hsingle := (ascii_of_mem_encodeChar hb hascii).symm.trans hchar
        obtain ⟨rfl, hnil⟩ | ⟨-, hnil⟩ := List.singleton_eq_append_iff.mp hsingle
        · obtain ⟨-, rfl⟩ := List.cons.inj hnil
          exact ⟨[], cs, rfl, (List.cons.inj hrest).2.symm⟩
        · cases hnil

theorem isSome_decode?_split (h : (decode? (as ++ b :: bs)).isSome = true)
    (hascii : b.toNat < 0x80) :
    (decode? as).isSome = true ∧ (decode? bs).isSome = true := by
  obtain ⟨cs, hcs⟩ := isSome_decode?_iff.mp h
  obtain ⟨front, back, hfront, hback⟩ := encodeChars_split hcs hascii
  exact ⟨isSome_decode?_iff.mpr ⟨front, hfront⟩, isSome_decode?_iff.mpr ⟨back, hback⟩⟩

/-- What follows ASCII begins with a whole character. -/
theorem isSome_decode?_of_ascii_append (h : (decode? (as ++ bs)).isSome = true)
    (hascii : ∀ b ∈ as, b.toNat < 0x80) : (decode? bs).isSome = true := by
  obtain ⟨cs, hcs⟩ := isSome_decode?_iff.mp h
  obtain ⟨tail, -, htail⟩ := encodeChars_eq_append hcs hascii
  exact isSome_decode?_iff.mpr ⟨tail, htail⟩

/-- What ASCII follows, or nothing, ends with a whole character. -/
theorem isSome_decode?_of_append (h : (decode? (as ++ bs)).isSome = true)
    (hascii : ∀ b ∈ bs.head?, b.toNat < 0x80) : (decode? as).isSome = true := by
  cases bs with
  | nil => rwa [List.append_nil] at h
  | cons b bs => exact (isSome_decode?_split h (hascii b rfl)).1

end Gateway.Text.Utf8
