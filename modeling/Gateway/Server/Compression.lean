import Gateway.Http.Body
import Gateway.Http.Message

/-! Compressing responses: which are worth it, and which clients accept it. -/
namespace Gateway.Server
open Http

/-- How the octets of a body are coded for the client. -/
inductive Coding where
  | identity
  | gzip
  deriving DecidableEq

/-- A response whose body, shown as it is before, is sent in a coding. -/
structure Coded where
  head : ResponseHead
  body : Body
  coding : Coding

namespace Coded

def plain (r : Response ResponseHead) : Coded := ⟨r.head, r.body, .identity⟩

/-- The size of what is sent, which nobody knows of a compressed body. -/
def exactSize (r : Coded) : Option Nat :=
  match r.coding with
  | .identity => r.body.report.exactSize
  | .gzip => none

end Coded

/-- The digits after the point of a weight, in thousandths; at most three. -/
def thousandths? (digits : Bytes) : Option Nat :=
  if 3 < digits.length then none
  else if digits.isEmpty then some 0
  else (Bytes.decimal? digits).map (· * Nat.pow 10 (3 - digits.length))

/-- A weight `q=…` from 0 to 1, in thousandths. -/
def weight? : Bytes → Option Nat
  | q :: 61 :: whole :: rest => do
    guard (q == 113 || q == 81)
    guard (whole == 48 || whole == 49)
    let base := if whole == 49 then 1000 else 0
    let value ← match rest with
      | [] => some base
      | 46 :: digits => (thousandths? digits).map (base + ·)
      | _ => none
    guard (value ≤ 1000)
    some value
  | _ => none

/-- A coding and its weight, 1 unless it is given. -/
def weighted? (element : Bytes) : Option (Bytes × Nat) :=
  match Bytes.splitFirst? 59 element with
  | none => some (Bytes.trim element, 1000)
  | some (name, weight) => (weight? (Bytes.trim weight)).map (Bytes.trim name, ·)

/-- The highest weight among the codings of these names; 0 when there is none. -/
def acceptance (h : Headers) (names : List Bytes) : Nat :=
  ((h.elements .acceptEncoding).filterMap weighted?).foldl
    (fun best (name, weight) =>
      if names.any (Bytes.eqIgnoreCase name) then max best weight else best) 0

/-- Whether the client accepts gzip and likes it no less than an uncoded body. -/
def prefersGzip (request : Headers) : Bool :=
  let gzip := acceptance request [.ofLatin1 "gzip", .ofLatin1 "x-gzip"]
  0 < gzip && acceptance request [.ofLatin1 "identity"] ≤ gzip

/-- The fewest octets that are worth compressing. -/
def minCompressedSize : Nat := 32

/-- Media types that do not gain by compression or must not be held back. -/
def isIncompressibleType (type : Bytes) : Bool :=
  let starts (s : String) : Bool := (Bytes.ofLatin1 s).isPrefixOf type
  (starts "image/" && type != Bytes.ofLatin1 "image/svg+xml")
    || (starts "application/grpc" && type != Bytes.ofLatin1 "application/grpc-web")
    || starts "text/event-stream"

/-- The size of a body, else what its header says. -/
def statedSize? (r : Response ResponseHead) : Option Nat :=
  r.body.report.exactSize <|>
    (r.head.headers.text? .contentLength).bind (Bytes.unsigned? UInt64.size)

def isCompressible (r : Response ResponseHead) : Bool :=
  !r.head.headers.contains .contentEncoding && !r.head.headers.contains .contentRange
    && (statedSize? r).all (minCompressedSize ≤ ·)
    && !isIncompressibleType ((r.head.headers.text? .contentType).getD [])

/-- Whether a string occurs in another, in any case. -/
def occursIn (needle : Bytes) : Bytes → Bool
  | [] => needle.isEmpty
  | b :: rest => (Bytes.lower needle).isPrefixOf (Bytes.lower (b :: rest)) || occursIn needle rest

/-- Says that the response depends on what codings the client accepts, unless it says so. -/
def varyOnCoding (h : Headers) : Headers :=
  if (h.values .vary).any fun v => occursIn HeaderName.acceptEncoding.bytes v.bytes then h
  else h.append .vary (.ofLatin1 "accept-encoding" (by decide))

/-- Compresses a response for clients that accept it. A response that could have been compressed
says so to all of them. -/
def compress (request : Headers) (r : Response ResponseHead) : Coded :=
  if !isCompressible r then .plain r
  else
    let h := varyOnCoding r.head.headers
    if prefersGzip request then
      let bare := (h.erase .acceptRanges).erase .contentLength
      ⟨⟨r.head.status, bare.insert .contentEncoding (.ofLatin1 "gzip" (by decide))⟩, r.body, .gzip⟩
    else .plain ⟨⟨r.head.status, h⟩, r.body⟩

end Gateway.Server
