import Gateway.Net.Address
import Gateway.Proofs.Text.Octets

/-! The octets that addresses are written in. -/
namespace Gateway.Net

def isAddressByte (b : UInt8) : Bool :=
  Bytes.isDigit b || (97 ≤ b && b ≤ 102) || b == 46 || b == 58

theorem all_digits {base : Nat} (hlow : 1 < base) (hhigh : base ≤ 16) (n : Nat) :
    ((Nat.toDigits base n).map (·.toNat.toUInt8)).all isAddressByte = true := by
  have hdigit : ∀ d < 16, isAddressByte (Nat.digitChar d).toNat.toUInt8 = true := by decide
  rw [List.all_map, List.all_eq_true]
  intro c hc
  obtain ⟨d, hd, rfl⟩ := digitChar_of_mem_toDigits hlow n c hc
  exact hdigit d (Nat.lt_of_lt_of_le hd hhigh)

theorem Ipv4.all_text (ip : Ipv4) : ip.text.all isAddressByte = true := by
  have hnumber (x : UInt8) : (Bytes.ofNat x.toNat).all isAddressByte = true :=
    all_digits (by decide) (by decide) x.toNat
  have hdot : isAddressByte 46 = true := by decide
  unfold Ipv4.text
  simp only [List.all_append, List.all_cons, hnumber, hdot, Bool.and_self]

theorem Ipv6.all_joined (gs : List UInt16) : (joined gs).all isAddressByte = true := by
  have hcolon : isAddressByte 58 = true := by decide
  have hgroup (g : UInt16) : (groupText g).all isAddressByte = true :=
    all_digits (by decide) (by decide) g.toNat
  unfold joined
  induction gs with
  | nil => rfl
  | cons g gs ih =>
    cases gs with
    | nil =>
      rw [List.map_singleton, List.intercalate_singleton]
      exact hgroup g
    | cons h gs =>
      rw [List.map_cons, List.map_cons, List.intercalate_cons_cons, ← List.map_cons]
      simp only [List.all_append, List.all_cons, List.all_nil, hgroup, hcolon, ih, Bool.and_self]

theorem Ipv6.all_text (ip : Ipv6) : ip.text.all isAddressByte = true := by
  have hmark : (Bytes.ofLatin1 "::ffff:").all isAddressByte = true := by decide
  have hcolon : isAddressByte 58 = true := by decide
  unfold Ipv6.text
  split
  · rw [List.all_append, hmark, Ipv4.all_text]
    rfl
  · dsimp only
    split
    · exact all_joined ip.groups
    · simp only [List.all_append, List.all_cons, List.all_nil, all_joined, hcolon, Bool.and_self]

theorem IpAddr.all_text (ip : IpAddr) : ip.text.all isAddressByte = true := by
  cases ip with
  | v4 ip => exact ip.all_text
  | v6 ip => exact ip.all_text

end Gateway.Net
