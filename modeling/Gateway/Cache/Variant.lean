import Gateway.Cache.Vary
import Gateway.Hash.Xxh3
import Gateway.Http.Message
import Gateway.Query

/-! Which stored response a request may be answered with: the request's base components, and the
values of the headers that the response varies on. `hashInput` writes both down. -/
namespace Gateway.Cache

open Gateway.Http

/-- A 64-bit fingerprint of a variant. -/
abbrev Key := UInt64

namespace Key

/-- Sixteen lower-case hexadecimal digits. -/
def display (k : Key) : String :=
  String.ofList ((List.range 16).map fun i => Bytes.hexDigit (k.toNat / Nat.pow 16 (15 - i) % 16))

/-- One to sixteen hexadecimal digits; a plus sign may stand in front. -/
def ofHex? (s : String) : Option Key :=
  let digits := match s.toList with
    | '+' :: rest => rest
    | cs => cs
  if digits.isEmpty then none
  else do
    let ds ← digits.mapM Bytes.hexValue?
    let n := ds.foldl (fun n d => n * 16 + d) 0
    if n < UInt64.size then some n.toUInt64 else none

end Key

/-- The parts of a request that decide which stored response applies, with the names of the
headers that are known to matter. -/
structure Variant where
  method : Method
  path : Bytes
  query : Bytes
  host : Bytes
  headers : Headers
  names : List HeaderName

namespace Variant

/-- The first `Host` value if it can be read, else the authority of the URI, else nothing. -/
def hostOf (uri : Uri) (headers : Headers) : Bytes :=
  match headers.text? .host with
  | some h => h
  | none => (uri.authority.map (·.bytes)).getD []

def ofRequest (r : RequestHead) : Variant where
  method := r.method
  path := r.uri.path
  query := Query.canonical r.uri.query
  host := hostOf r.uri r.headers
  headers := r.headers
  names := []

/-- The variant with another list of header names that matter. -/
def withNames (v : Variant) (names : List HeaderName) : Variant := { v with names }

/-- The variant with the names that a response declares. -/
def learn (v : Variant) (response : Headers) : Variant := v.withNames (varyNames response)

/-- The first value of a header, empty when there is none. -/
def value (v : Variant) (n : HeaderName) : Bytes := v.headers.firstBytes n

/-- The components that every variant of a resource shares, each closed by a zero octet. -/
def baseInput (v : Variant) : Bytes :=
  v.method.bytes ++ 0 :: (v.path ++ 0 :: (v.query ++ 0 :: (v.host ++ [0])))

/-- The octets that the key is the hash of: the base, then `name=value` and a zero octet for each
name. -/
def hashInput (v : Variant) : Bytes :=
  v.baseInput ++ v.names.flatMap fun n => n.bytes ++ 61 :: (v.value n ++ [0])

def key (v : Variant) : Key := Hash.Xxh3.hash v.hashInput

/-- Every name has the same first value in `stored` as in the request. -/
def accepts (v : Variant) (stored : Headers) : Bool :=
  v.names.all fun n => stored.firstBytes n == v.value n

/-- The first values of the names that the request carries. -/
def recorded (v : Variant) : Headers :=
  v.names.foldl (fun h n => match v.headers.get? n with
    | some value => h.insert n value
    | none => h) ∅

end Variant

end Gateway.Cache
