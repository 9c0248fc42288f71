import Gateway.Proofs.Cache.ValueForms
import Mathlib.Algebra.Order.Ring.Nat
import Mathlib.Tactic.Ring

/-! What is written is one of the forms that are read, so it is read back, whatever follows it: numbers
of a fixed width, then the heads of the four forms in all their widths, then runs of elements. -/
namespace Gateway.Cache.MessagePack

/-! ### Numbers of a fixed width -/

theorem length_bigEndian (w n : Nat) : (bigEndian w n).length = w := by
  induction w with
  | zero => rfl
  | succ w ih => simp [bigEndian, ih]

theorem toNat_digit (n : Nat) : (n % 256).toUInt8.toNat = n % 256 := by
  simp only [Nat.toUInt8, UInt8.toNat_ofNat']
  omega

/-- Further digits move the number read so far up by their width. -/
theorem foldl_bigEndian (start w n : Nat) :
    (bigEndian w n).foldl (fun m b => m * 256 + b.toNat) start = start * 256 ^ w + n % 256 ^ w := by
  induction w generalizing start with
  | zero => simp [bigEndian, Nat.mod_one]
  | succ w ih =>
    have hmod : n % 256 ^ (w + 1) = n % 256 ^ w + 256 ^ w * (n / 256 ^ w % 256) := by
      rw [Nat.pow_succ, Nat.mod_mul]
    rw [bigEndian, Nat.pow_eq, List.foldl_cons, ih, toNat_digit, hmod]
    ring

theorem ofBigEndian_bigEndian {w n : Nat} (h : n < 256 ^ w) : ofBigEndian (bigEndian w n) = n := by
  unfold ofBigEndian
  rw [foldl_bigEndian, Nat.zero_mul, Nat.zero_add, Nat.mod_eq_of_lt h]

/-! ### Heads -/

theorem bigEndian_mem_numbered {table : List (UInt8 × Nat)} {marker : UInt8} {w n : Nat}
    (hmarker : (marker, w) ∈ table) (h : n < 256 ^ w) :
    marker :: bigEndian w n ∈ numbered table n :=
  ⟨marker, bigEndian w n, by rwa [length_bigEndian], ofBigEndian_bigEndian h, rfl⟩

theorem writeUnsigned_mem_forms {n : Nat} (h : n < UInt64.size) :
    writeUnsigned n ∈ (Head.unsigned n).forms := by
  unfold writeUnsigned
  split_ifs with h7 h8 h16 h32
  · exact .inl ⟨h7, by rw [Nat.zero_add]⟩
  · exact .inr (bigEndian_mem_numbered (by decide) h8)
  · exact .inr (bigEndian_mem_numbered (by decide) h16)
  · exact .inr (bigEndian_mem_numbered (by decide) h32)
  · exact .inr (bigEndian_mem_numbered (by decide) h)

theorem writeText_mem_forms {content : Bytes} (h : content.length < UInt32.size) :
    writeText content ∈ (Head.text content).forms := by
  unfold writeText
  refine Language.append_mem_mul ?_ rfl
  split_ifs with h5 h8 h16
  · exact .inl ⟨h5, rfl⟩
  · exact .inr (bigEndian_mem_numbered (by decide) h8)
  · exact .inr (bigEndian_mem_numbered (by decide) h16)
  · exact .inr (bigEndian_mem_numbered (by decide) h)

theorem writeOctets_mem_forms {content : Bytes} (h : content.length < UInt32.size) :
    writeOctets content ∈ (Head.octets content).forms := by
  unfold writeOctets
  refine Language.append_mem_mul ?_ rfl
  split_ifs with h8 h16
  · exact bigEndian_mem_numbered (by decide) h8
  · exact bigEndian_mem_numbered (by decide) h16
  · exact bigEndian_mem_numbered (by decide) h

theorem writeArray_mem_forms {n : Nat} (h : n < UInt32.size) :
    writeArray n ∈ (Head.array n).forms := by
  unfold writeArray
  split_ifs with h4 h16
  · exact .inl ⟨h4, rfl⟩
  · exact .inr (bigEndian_mem_numbered (by decide) h16)
  · exact .inr (bigEndian_mem_numbered (by decide) h)

theorem read?_writeText {content : Bytes} (h : content.length < UInt32.size) (rest : Bytes) :
    Head.read? (writeText content ++ rest) = some (.text content, rest) :=
  reads_read?.complete (writeText_mem_forms h) rest

theorem read?_writeArray {n : Nat} (h : n < UInt32.size) (rest : Bytes) :
    Head.read? (writeArray n ++ rest) = some (.array n, rest) :=
  reads_read?.complete (writeArray_mem_forms h) rest

/-! ### Values -/

theorem integer?_writeUnsigned {bound n : Nat} (h : n < bound) (hsize : n < UInt64.size)
    (rest : Bytes) : integer? bound (writeUnsigned n ++ rest) = some (n, rest) :=
  (reads_integer? bound).complete ⟨h, .inl (writeUnsigned_mem_forms hsize)⟩ rest

theorem octets?_writeOctets {content : Bytes} (h : content.length < UInt32.size) (rest : Bytes) :
    octets? (writeOctets content ++ rest) = some (content, rest) :=
  reads_octets?.complete (.inl (.inl (writeOctets_mem_forms h))) rest

/-- A run of elements is read back when each element is. -/
theorem repeat?_flatMap {α β : Type} {read : Bytes → Option (β × Bytes)} {write : α → Bytes}
    {seen : α → β} {as : List α}
    (h : ∀ a ∈ as, ∀ rest, read (write a ++ rest) = some (seen a, rest)) (rest : Bytes) :
    repeat? read as.length (as.flatMap write ++ rest) = some (as.map seen, rest) := by
  induction as with
  | nil => rfl
  | cons a as ih =>
    have hhead := h a List.mem_cons_self (as.flatMap write ++ rest)
    have htail := ih fun b hb => h b (List.mem_cons_of_mem a hb)
    simp [repeat?, hhead, htail]

end Gateway.Cache.MessagePack
