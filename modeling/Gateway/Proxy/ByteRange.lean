import Gateway.Bytes

/-! The `Range` request header, read strictly, and the ranges of a content that it selects. -/
namespace Gateway.Proxy

/-- One range as it is asked for. -/
inductive RangeSpec where
  | between (first last : Nat)
  | starting (first : Nat)
  | ending (count : Nat)
  deriving DecidableEq

/-- The places of the first and the last octet. -/
structure ByteRange where
  first : Nat
  last : Nat
  deriving DecidableEq

namespace RangeSpec

/-- A number of 64 bits without sign or leading zero. -/
def position? (bs : Bytes) : Option Nat :=
  if 1 < bs.length && bs.head? == some 48 then none else (Bytes.decimal? bs).filter (· < UInt64.size)

/-- One element of the list: at most one blank, and none at the end. -/
def ofElement? (bs : Bytes) : Option RangeSpec :=
  if bs.getLast?.any Bytes.isBlank || 1 < (bs.filter Bytes.isBlank).length then none
  else match Bytes.splitFirst? 45 (Bytes.trim bs) with
    | none => none
    | some ([], count) => ((position? count).filter (0 < ·)).map ending
    | some (first, []) => (position? first).map starting
    | some (first, last) => do some (between (← position? first) (← position? last))

/-- Reads a whole header value; the unit must be `bytes`. -/
def parse? (value : Bytes) : Option (List RangeSpec) :=
  let unit : Bytes := .ofLatin1 "bytes="
  if unit.isPrefixOf value && !(value.drop unit.length).head?.any Bytes.isBlank then
    (Bytes.splitOn 44 (value.drop unit.length)).mapM ofElement?
  else none

/-- The octets selected from a content of a size; the end is cut to the content. -/
def resolve? (size : Nat) (spec : RangeSpec) : Option ByteRange :=
  let range? : Option ByteRange := match spec with
    | between first last => some ⟨first, min last (size - 1)⟩
    | starting first => some ⟨first, size - 1⟩
    | ending count => if size < count then none else some ⟨size - count, size - 1⟩
  range?.filter fun r => r.first ≤ r.last

end RangeSpec

namespace ByteRange

def overlaps (a b : ByteRange) : Bool := a.first ≤ b.last && b.first ≤ a.last

def areDisjoint : List ByteRange → Bool
  | [] => true
  | r :: rest => !rest.any r.overlaps && areDisjoint rest

/-- The ranges that a header value selects, none of them empty and no two with a common octet. -/
def select? (value : Bytes) (size : Nat) : Option (List ByteRange) := do
  ((← RangeSpec.parse? value).mapM (RangeSpec.resolve? size)).filter areDisjoint

end ByteRange

end Gateway.Proxy
