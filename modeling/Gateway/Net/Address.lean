import Gateway.Bytes

/-! IP addresses and socket addresses: reading them strictly, and their shortest spelling. -/
namespace Gateway.Net

structure Ipv4 where
  a : UInt8
  b : UInt8
  c : UInt8
  d : UInt8
  deriving DecidableEq

namespace Ipv4

/-- One to three decimal digits without a leading zero, at most 255. -/
def octet? (bs : Bytes) : Option UInt8 :=
  if 3 < bs.length || (1 < bs.length && bs.head? == some 48) then none
  else ((Bytes.decimal? bs).filter (· < 256)).map (·.toUInt8)

def parse? (bs : Bytes) : Option Ipv4 :=
  match Bytes.splitOn 46 bs with
  | [a, b, c, d] => do some ⟨← octet? a, ← octet? b, ← octet? c, ← octet? d⟩
  | _ => none

def text (ip : Ipv4) : Bytes :=
  let dot (x : UInt8) : Bytes := 46 :: Bytes.ofNat x.toNat
  Bytes.ofNat ip.a.toNat ++ dot ip.b ++ dot ip.c ++ dot ip.d

/-- The address as two groups of 16 bits. -/
def groups (ip : Ipv4) : List UInt16 :=
  [(ip.a.toNat * 256 + ip.b.toNat).toUInt16, (ip.c.toNat * 256 + ip.d.toNat).toUInt16]

end Ipv4

structure Ipv6 where
  groups : List UInt16
  length_eq : groups.length = 8
  deriving DecidableEq

namespace Ipv6

def ofGroups? (gs : List UInt16) : Option Ipv6 :=
  if h : gs.length = 8 then some ⟨gs, h⟩ else none

/-- One to four hexadecimal digits. -/
def group? (bs : Bytes) : Option UInt16 :=
  if bs.isEmpty || 4 < bs.length then none
  else (bs.foldl (fun acc b => do
    some ((← acc) * 16 + (← Bytes.hexValue? (Char.ofNat b.toNat)))) (some 0)).map (·.toUInt16)

/-- Groups between colons; the last piece may be a dotted address that counts as two. -/
def pieces? (dotted : Bool) : List Bytes → Option (List UInt16)
  | [] => some []
  | [last] => match dotted, Ipv4.parse? last with
    | true, some ip => some ip.groups
    | _, _ => (group? last).map ([·])
  | piece :: rest => do some ((← group? piece) :: (← pieces? dotted rest))

/-- The groups of one side of the double colon; a blank side has none. -/
def side? (dotted : Bool) (bs : Bytes) : Option (List UInt16) :=
  if bs.isEmpty then some [] else pieces? dotted (Bytes.splitOn 58 bs)

/-- What stands before and after the first double colon. -/
def splitDouble? : Bytes → Option (Bytes × Bytes)
  | 58 :: 58 :: rest => some ([], rest)
  | b :: rest => (splitDouble? rest).map fun (before, after) => (b :: before, after)
  | [] => none

/-- Eight groups, or fewer around a double colon that stands for at least one group of zero. -/
def parse? (bs : Bytes) : Option Ipv6 :=
  match splitDouble? bs with
  | none => (pieces? true (Bytes.splitOn 58 bs)).bind ofGroups?
  | some (before, after) => do
    let front ← side? false before
    let back ← side? true after
    if 7 < front.length + back.length then none
    else ofGroups? (front ++ List.replicate (8 - (front.length + back.length)) 0 ++ back)

def groupText (g : UInt16) : Bytes := (Nat.toDigits 16 g.toNat).map (·.toNat.toUInt8)

def joined (gs : List UInt16) : Bytes := [58].intercalate (gs.map groupText)

def zerosAt (gs : List UInt16) (i : Nat) : Nat := ((gs.drop i).takeWhile (· == 0)).length

/-- Start and length of the first of the longest runs of zeros. -/
def longestZeros (gs : List UInt16) : Nat × Nat :=
  (List.range gs.length).foldl (fun best i =>
    if best.2 < zerosAt gs i then (i, zerosAt gs i) else best) (0, 0)

/-- The address that is embedded after five groups of zero and one of ones. -/
def mapped? (ip : Ipv6) : Option Ipv4 :=
  match ip.groups with
  | [0, 0, 0, 0, 0, 0xFFFF, hi, lo] =>
    some ⟨(hi / 256).toUInt8, (hi % 256).toUInt8, (lo / 256).toUInt8, (lo % 256).toUInt8⟩
  | _ => none

/-- The first longest run of at least two zeros is written as a double colon. -/
def text (ip : Ipv6) : Bytes :=
  match ip.mapped? with
  | some v4 => .ofLatin1 "::ffff:" ++ v4.text
  | none =>
    let (start, len) := longestZeros ip.groups
    if len < 2 then joined ip.groups
    else joined (ip.groups.take start) ++ [58, 58] ++ joined (ip.groups.drop (start + len))

end Ipv6

inductive IpAddr where
  | v4 (ip : Ipv4)
  | v6 (ip : Ipv6)
  deriving DecidableEq

namespace IpAddr

def parse? (bs : Bytes) : Option IpAddr :=
  match Ipv4.parse? bs with
  | some ip => some (v4 ip)
  | none => (Ipv6.parse? bs).map v6

def text : IpAddr → Bytes
  | v4 ip => ip.text
  | v6 ip => ip.text

end IpAddr

/-- An address with a port; the scope of an IPv6 address is 0 when there is none. -/
structure SocketAddr where
  ip : IpAddr
  scope : Nat
  port : UInt16
  deriving DecidableEq

namespace SocketAddr

/-- Decimal digits of a number below a bound, leading zeros allowed. -/
def number? (bound : Nat) (bs : Bytes) : Option Nat := (Bytes.decimal? bs).filter (· < bound)

def port? (bs : Bytes) : Option UInt16 := (number? 65536 bs).map (·.toUInt16)

/-- An address and its scope: `addr` or `addr%scope`. -/
def scoped? (bs : Bytes) : Option (Ipv6 × Nat) :=
  match Bytes.splitFirst? 37 bs with
  | some (addr, scope) => do some (← Ipv6.parse? addr, ← number? UInt32.size scope)
  | none => (Ipv6.parse? bs).map (·, 0)

def parse? : Bytes → Option SocketAddr
  | 91 :: rest => do
    let (inside, after) ← Bytes.splitFirst? 93 rest
    let (ip, scope) ← scoped? inside
    match after with
    | 58 :: port => some ⟨.v6 ip, scope, ← port? port⟩
    | _ => none
  | bs => do
    let (host, port) ← Bytes.splitFirst? 58 bs
    some ⟨.v4 (← Ipv4.parse? host), 0, ← port? port⟩

def text (s : SocketAddr) : Bytes :=
  let port : Bytes := 58 :: Bytes.ofNat s.port.toNat
  match s.ip with
  | .v4 ip => ip.text ++ port
  | .v6 ip =>
    let scope : Bytes := if s.scope = 0 then [] else 37 :: Bytes.ofNat s.scope
    91 :: ip.text ++ scope ++ [93] ++ port

end SocketAddr

end Gateway.Net
