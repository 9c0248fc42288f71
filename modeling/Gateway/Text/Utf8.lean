import Gateway.Bytes

/-! UTF-8: writing, strict reading, and reading with U+FFFD for each ill-formed piece. -/
namespace Gateway.Text.Utf8

def encodeChar (c : Char) : Bytes :=
  let n := c.toNat
  if n < 0x80 then [n.toUInt8]
  else if n < 0x800 then [(0xC0 + n / 64).toUInt8, (0x80 + n % 64).toUInt8]
  else if n < 0x10000 then
    [(0xE0 + n / 4096).toUInt8, (0x80 + n / 64 % 64).toUInt8, (0x80 + n % 64).toUInt8]
  else
    [(0xF0 + n / 262144).toUInt8, (0x80 + n / 4096 % 64).toUInt8, (0x80 + n / 64 % 64).toUInt8,
      (0x80 + n % 64).toUInt8]

def encodeChars (cs : List Char) : Bytes := cs.flatMap encodeChar

def encode (s : String) : Bytes := encodeChars s.toList

def inRange (lo hi : Nat) (b : UInt8) : Bool := lo ≤ b.toNat && b.toNat ≤ hi

def continues (b : UInt8) : Bool := inRange 0x80 0xBF b

/-- The second octets that may follow a lead octet of three or four. -/
def secondRange (lead : Nat) : Nat × Nat :=
  if lead = 0xE0 then (0xA0, 0xBF)
  else if lead = 0xED then (0x80, 0x9F)
  else if lead = 0xF0 then (0x90, 0xBF)
  else if lead = 0xF4 then (0x80, 0x8F)
  else (0x80, 0xBF)

/-- The character at the front, or `none` for the longest piece there that begins no
character, with what follows it. -/
def next (lead : UInt8) (rest : Bytes) : Option Char × Bytes :=
  let b := lead.toNat
  let (lo, hi) := secondRange b
  if b < 0x80 then (some (Char.ofNat b), rest)
  else if b < 0xC2 then (none, rest)
  else if b < 0xE0 then
    match rest with
    | c :: after =>
      if continues c then (some (Char.ofNat ((b - 0xC0) * 64 + (c.toNat - 0x80))), after)
      else (none, rest)
    | [] => (none, rest)
  else if b < 0xF0 then
    match rest with
    | c :: d :: after =>
      if inRange lo hi c then
        if continues d then
          (some (Char.ofNat ((b - 0xE0) * 4096 + (c.toNat - 0x80) * 64 + (d.toNat - 0x80))), after)
        else (none, d :: after)
      else (none, rest)
    | [c] => if inRange lo hi c then (none, []) else (none, rest)
    | [] => (none, rest)
  else if b < 0xF5 then
    match rest with
    | c :: d :: e :: after =>
      if inRange lo hi c then
        if continues d then
          if continues e then
            (some (Char.ofNat ((b - 0xF0) * 262144 + (c.toNat - 0x80) * 4096
              + (d.toNat - 0x80) * 64 + (e.toNat - 0x80))), after)
          else (none, e :: after)
        else (none, d :: e :: after)
      else (none, rest)
    | [c, d] =>
      if inRange lo hi c then if continues d then (none, []) else (none, [d]) else (none, rest)
    | [c] => if inRange lo hi c then (none, []) else (none, rest)
    | [] => (none, rest)
  else (none, rest)

theorem next_length_le (lead : UInt8) (rest : Bytes) : (next lead rest).2.length ≤ rest.length := by
  unfold next
  dsimp only
  repeat' split
  all_goals simp only [List.length_cons, List.length_nil]
  all_goals omega

/-- Reads the whole string, or nothing when it is not UTF-8. -/
def decode? : Bytes → Option (List Char)
  | [] => some []
  | b :: rest =>
    match (next b rest).1 with
    | some c => (decode? (next b rest).2).map (c :: ·)
    | none => none
  termination_by bs => bs.length
  decreasing_by exact Nat.lt_succ_of_le (next_length_le b rest)

/-- The mark that stands for an ill-formed piece. -/
def replacement : Char := Char.ofNat 0xFFFD

/-- Reads any string; each ill-formed piece becomes one `replacement`. -/
def decodeLossy : Bytes → List Char
  | [] => []
  | b :: rest =>
    (next b rest).1.getD replacement :: decodeLossy (next b rest).2
  termination_by bs => bs.length
  decreasing_by exact Nat.lt_succ_of_le (next_length_le b rest)

/-- The text that octets denote, with `replacement` where they are not UTF-8. -/
def display (bs : Bytes) : String := String.ofList (decodeLossy bs)

end Gateway.Text.Utf8
