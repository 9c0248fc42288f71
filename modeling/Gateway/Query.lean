import Gateway.Text.Utf8

/-! Form-encoded queries: reading into parameters, writing, and the canonical spelling, which has
the parameters sorted by name and the values of one name in their order. -/
namespace Gateway.Query

/-- A decoded name and value. -/
abbrev Param := List Char × List Char

/-- Replaces `%XX` by the octet; a percent sign without two digits stands for itself. -/
def percentDecode : Bytes → Bytes
  | [] => []
  | 37 :: h :: l :: rest =>
    match Bytes.hexValue? (Char.ofNat h.toNat), Bytes.hexValue? (Char.ofNat l.toNat) with
    | some hi, some lo => (hi * 16 + lo).toUInt8 :: percentDecode rest
    | _, _ => 37 :: percentDecode (h :: l :: rest)
  | b :: rest => b :: percentDecode rest

/-- The octets that a written name or value stands for. -/
def unescape (bs : Bytes) : Bytes := percentDecode (bs.map fun b => if b == 43 then 32 else b)

/-- The non-empty parts between ampersands, each cut at its first equals sign. -/
def rawPairs (query : Bytes) : List (Bytes × Bytes) :=
  ((Bytes.splitOn 38 query).filter fun part => !part.isEmpty).map fun part =>
    (Bytes.splitFirst? 61 part).getD (part, [])

/-- The names and values on the wire, as octets. -/
def octetPairs (query : Bytes) : List (Bytes × Bytes) :=
  (rawPairs query).map fun (n, v) => (unescape n, unescape v)

def parse (query : Bytes) : List Param :=
  (octetPairs query).map fun (n, v) => (Text.Utf8.decodeLossy n, Text.Utf8.decodeLossy v)

def upperHexDigit (n : Nat) : UInt8 := if n < 10 then (48 + n).toUInt8 else (55 + n).toUInt8

/-- Letters, digits and `*-._` stand for themselves, a space becomes a plus sign, and any other
octet is written `%XX`. -/
def escapeByte (b : UInt8) : Bytes :=
  if Bytes.isAlphanumeric b || b == 42 || b == 45 || b == 46 || b == 95 then [b]
  else if b == 32 then [43]
  else [37, upperHexDigit (b.toNat / 16), upperHexDigit (b.toNat % 16)]

def escape (cs : List Char) : Bytes := (Text.Utf8.encodeChars cs).flatMap escapeByte

def writeParam (p : Param) : Bytes := escape p.1 ++ 61 :: escape p.2

/-- Parameters with an ampersand between any two; the equals sign is always written. -/
def write : List Param → Bytes
  | [] => []
  | [p] => writeParam p
  | p :: ps => writeParam p ++ 38 :: write ps

/-- Order by code points, a prefix before what it begins. -/
def charsLE : List Char → List Char → Bool
  | [], _ => true
  | _ :: _, [] => false
  | a :: as, b :: bs => if a = b then charsLE as bs else decide (a.toNat < b.toNat)

def nameLE (a b : Param) : Bool := charsLE a.1 b.1

/-- Sorted by name, the values of one name in their order. -/
def canonicalParams (query : Bytes) : List Param := (parse query).mergeSort nameLE

/-- The canonical spelling of a query; an absent one is empty. -/
def canonical (query : Option Bytes) : Bytes :=
  match query with
  | none => []
  | some q => write (canonicalParams q)

end Gateway.Query
