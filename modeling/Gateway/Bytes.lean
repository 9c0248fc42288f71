/-! Octet strings, and the ASCII operations that protocol text is made of. -/
namespace Gateway

/-- An octet string. -/
abbrev Bytes := List UInt8

namespace Bytes

/-- One octet per character; characters above U+00FF wrap. -/
def ofLatin1 (s : String) : Bytes := s.toList.map (·.toNat.toUInt8)

/-- One character per octet. -/
def toLatin1 (bs : Bytes) : String := String.ofList (bs.map fun b => Char.ofNat b.toNat)

def isUpper (b : UInt8) : Bool := 65 ≤ b && b ≤ 90

def isDigit (b : UInt8) : Bool := 48 ≤ b && b ≤ 57

def isAlpha (b : UInt8) : Bool := (65 ≤ b && b ≤ 90) || (97 ≤ b && b ≤ 122)

def isAlphanumeric (b : UInt8) : Bool := isDigit b || isAlpha b

def lowerByte (b : UInt8) : UInt8 := if isUpper b then b + 32 else b

/-- ASCII letters folded to lower case. -/
def lower (bs : Bytes) : Bytes := bs.map lowerByte

def eqIgnoreCase (a b : Bytes) : Bool := lower a == lower b

/-- The pieces between the separators; there is always at least one. -/
def splitOn (sep : UInt8) : Bytes → List Bytes
  | [] => [[]]
  | b :: rest =>
    if b = sep then [] :: splitOn sep rest
    else match splitOn sep rest with
      | [] => [[b]]
      | piece :: pieces => (b :: piece) :: pieces

/-- What stands before and after the first separator. -/
def splitFirst? (sep : UInt8) : Bytes → Option (Bytes × Bytes)
  | [] => none
  | b :: rest =>
    if b = sep then some ([], rest)
    else (splitFirst? sep rest).map fun (before, after) => (b :: before, after)

def dropEndWhile (p : UInt8 → Bool) (bs : Bytes) : Bytes := (bs.reverse.dropWhile p).reverse

def trimWhile (p : UInt8 → Bool) (bs : Bytes) : Bytes := dropEndWhile p (bs.dropWhile p)

/-- Space, tab, line feed, form feed and carriage return. -/
def isBlank (b : UInt8) : Bool := b == 32 || b == 9 || b == 10 || b == 12 || b == 13

def trim (bs : Bytes) : Bytes := trimWhile isBlank bs

/-- The number that a non-empty string of decimal digits denotes. -/
def decimal? (bs : Bytes) : Option Nat :=
  if bs.isEmpty || !bs.all isDigit then none
  else some (bs.foldl (fun n b => n * 10 + (b.toNat - 48)) 0)

/-- Like `decimal?`, with one plus sign allowed in front, for numbers below `bound`. -/
def unsigned? (bound : Nat) (bs : Bytes) : Option Nat :=
  let digits := match bs with
    | 43 :: rest => rest
    | _ => bs
  (decimal? digits).filter (· < bound)

/-- The decimal digits of a number. -/
def ofNat (n : Nat) : Bytes := (Nat.toDigits 10 n).map (·.toNat.toUInt8)

def hexDigit (n : Nat) : Char := "0123456789abcdef".toList.getD n '0'

def hexValue? (c : Char) : Option Nat :=
  if '0' ≤ c ∧ c ≤ '9' then some (c.toNat - 48)
  else if 'a' ≤ c ∧ c ≤ 'f' then some (c.toNat - 87)
  else if 'A' ≤ c ∧ c ≤ 'F' then some (c.toNat - 55)
  else none

/-- Two lower-case hexadecimal digits an octet. -/
def toHex (bs : Bytes) : String :=
  String.ofList (bs.flatMap fun b => [hexDigit (b.toNat / 16), hexDigit (b.toNat % 16)])

/-- Reads pairs of hexadecimal digits of either case. -/
def ofHexChars? : List Char → Option Bytes
  | [] => some []
  | [_] => none
  | hi :: lo :: rest => do
    let h ← hexValue? hi
    let l ← hexValue? lo
    let bs ← ofHexChars? rest
    some ((h * 16 + l).toUInt8 :: bs)

def ofHex? (s : String) : Option Bytes := ofHexChars? s.toList

end Bytes

end Gateway
