import Gateway.Text.Utf8
import Mathlib.Data.List.Basic

/-! Characters with the numbers of octets, and the ASCII text at the front of an encoding. -/
namespace Gateway

def charOf (b : UInt8) : Char := Char.ofNat b.toNat

def charsOf (bs : Bytes) : List Char := bs.map charOf

theorem toNat_charOf (b : UInt8) : (charOf b).toNat = b.toNat := by
  have hlt := b.toNat_lt
  have hvalid : b.toNat.isValidChar := .inl (by omega)
  have hchar : charOf b = Char.ofNatAux b.toNat hvalid := dif_pos hvalid
  rw [hchar]
  rfl

theorem charOf_inj {b c : UInt8} : charOf b = charOf c ↔ b = c := by
  refine ⟨fun h => ?_, congrArg charOf⟩
  have hnat := congrArg Char.toNat h
  rw [toNat_charOf, toNat_charOf] at hnat
  exact UInt8.toNat_inj.mp hnat

/-- What holds of every number below 256 holds of every octet. -/
theorem forall_octet {P : UInt8 → Prop} (h : ∀ n < 256, P n.toUInt8) (b : UInt8) : P b := by
  have hb := h b.toNat b.toNat_lt
  rwa [Nat.toUInt8_eq, UInt8.ofNat_toNat] at hb

theorem charsOf_append (bs cs : Bytes) : charsOf (bs ++ cs) = charsOf bs ++ charsOf cs :=
  List.map_append

theorem mem_charsOf {b : UInt8} {bs : Bytes} : charOf b ∈ charsOf bs ↔ b ∈ bs :=
  List.mem_map_of_injective fun _ _ => charOf_inj.mp

theorem all_charsOf {p : Char → Bool} {q : UInt8 → Bool} (h : ∀ b, p (charOf b) = q b)
    (bs : Bytes) : (charsOf bs).all p = bs.all q := by
  simp [charsOf, List.all_map, Function.comp_def, h]

/-- A number is written in the digits of its base. -/
theorem digitChar_of_mem_toDigits {base : Nat} (hbase : 1 < base) (n : Nat) :
    ∀ c ∈ Nat.toDigits base n, ∃ d < base, c = Nat.digitChar d := by
  induction n using Nat.strongRecOn with
  | ind n ih =>
    rw [Nat.toDigits_eq_if hbase]
    split
    · rename_i hsmall
      intro c hc
      exact ⟨n, hsmall, List.mem_singleton.mp hc⟩
    · rename_i hlarge
      have hless : n / base < n := Nat.div_lt_self (by omega) hbase
      have hlast : n % base < base := Nat.mod_lt n (by omega)
      intro c hc
      rcases List.mem_append.mp hc with hc | hc
      · exact ih (n / base) hless c hc
      · exact ⟨n % base, hlast, List.mem_singleton.mp hc⟩

theorem Bytes.isDigit_of_mem_ofNat {n : Nat} {b : UInt8} (hb : b ∈ Bytes.ofNat n) :
    isDigit b = true := by
  have hdigit : ∀ d < 10, isDigit (Nat.digitChar d).toNat.toUInt8 = true := by decide
  obtain ⟨c, hc, rfl⟩ := List.mem_map.mp hb
  obtain ⟨d, hd, rfl⟩ := digitChar_of_mem_toDigits (by decide) n c hc
  exact hdigit d hd

section Cutting
variable {α : Type} {p : α → Bool} {front tail : List α}

/-- A text is cut where the first part ends. -/
theorem takeWhile_append_of_head (hfront : ∀ c ∈ front, p c = true)
    (htail : ∀ c ∈ tail.head?, p c = false) :
    (front ++ tail).takeWhile p = front ∧ (front ++ tail).dropWhile p = tail := by
  rw [List.takeWhile_append_of_pos hfront, List.dropWhile_append_of_pos hfront]
  cases tail with
  | nil => exact ⟨List.append_nil _, rfl⟩
  | cons c cs =>
    have hc : ¬ p c = true := Bool.eq_false_iff.mp (htail c rfl)
    rw [List.takeWhile_cons_of_neg hc, List.dropWhile_cons_of_neg hc]
    exact ⟨List.append_nil _, rfl⟩

end Cutting

namespace Text.Utf8

theorem encodeChar_of_ascii {c : Char} (h : c.toNat < 0x80) :
    encodeChar c = [c.toNat.toUInt8] := by
  unfold encodeChar
  exact if_pos h

theorem toNat_toUInt8 {n : Nat} (h : n < 256) : n.toUInt8.toNat = n := by
  rw [Nat.toUInt8_eq, UInt8.toNat_ofNat', Nat.mod_eq_of_lt h]

theorem encode_append (s t : String) : encode (s ++ t) = encode s ++ encode t := by
  rw [encode, String.toList_append]
  exact List.flatMap_append

theorem encodeChars_of_ascii {cs : List Char} (h : ∀ c ∈ cs, c.toNat < 0x80) :
    encodeChars cs = cs.map (·.toNat.toUInt8) := by
  induction cs with
  | nil => rfl
  | cons c cs ih =>
    have hc := encodeChar_of_ascii (h c List.mem_cons_self)
    have hcs := ih fun d hd => h d (List.mem_cons_of_mem c hd)
    rw [encodeChars, List.flatMap_cons, hc, ← encodeChars, hcs]
    rfl

/-- A number is the same text in octets. -/
theorem encode_toString (n : Nat) : encode (toString n) = Bytes.ofNat n := by
  have hascii : ∀ d < 10, (Nat.digitChar d).toNat < 0x80 := by decide
  rw [encode, Nat.toString_eq_ofList_toDigits, String.toList_ofList]
  apply encodeChars_of_ascii
  intro c hc
  obtain ⟨d, hd, rfl⟩ := digitChar_of_mem_toDigits (by decide) n c hc
  exact hascii d hd

/-- Characters beyond ASCII begin with an octet beyond ASCII. -/
theorem encodeChar_head {c : Char} (h : 0x80 ≤ c.toNat) :
    ∃ b bs, encodeChar c = b :: bs ∧ 0x80 ≤ b.toNat := by
  have hmax : c.toNat < 0x110000 := by
    rcases c.valid with hlow | ⟨-, hhigh⟩
    · exact Nat.lt_trans hlow (by decide)
    · exact hhigh
  unfold encodeChar
  dsimp only
  rw [if_neg (Nat.not_lt.mpr h)]
  split_ifs
  · exact ⟨_, _, rfl, by rw [toNat_toUInt8] <;> omega⟩
  · exact ⟨_, _, rfl, by rw [toNat_toUInt8] <;> omega⟩
  · exact ⟨_, _, rfl, by rw [toNat_toUInt8] <;> omega⟩

/-- ASCII octets at the front of an encoding stand for themselves. -/
theorem encodeChars_eq_append {cs : List Char} {bs rest : Bytes} (h : encodeChars cs = bs ++ rest)
    (hbs : ∀ b ∈ bs, b.toNat < 0x80) :
    ∃ tail, cs = charsOf bs ++ tail ∧ encodeChars tail = rest := by
  induction bs generalizing cs with
  | nil => exact ⟨cs, rfl, h⟩
  | cons b bs ih =>
    cases cs with
    | nil => cases h
    | cons c cs =>
      have hb := hbs b List.mem_cons_self
      rw [encodeChars, List.flatMap_cons] at h
      rcases Nat.lt_or_ge c.toNat 0x80 with hlow | hhigh
      · rw [encodeChar_of_ascii hlow] at h
        obtain ⟨rfl, hrest⟩ := List.cons.inj h
        obtain ⟨tail, rfl, htail⟩ := ih hrest fun d hd => hbs d (List.mem_cons_of_mem _ hd)
        refine ⟨tail, ?_, htail⟩
        have hc : charOf c.toNat.toUInt8 = c := by
          rw [charOf, toNat_toUInt8 (by omega), Char.ofNat_toNat]
        exact congrArg (· :: (charsOf bs ++ tail)) hc.symm
      · obtain ⟨d, ds, hencode, hd⟩ := encodeChar_head hhigh
        rw [hencode] at h
        obtain ⟨rfl, -⟩ := List.cons.inj h
        omega

end Text.Utf8

end Gateway
