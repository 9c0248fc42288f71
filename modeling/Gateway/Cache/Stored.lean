import Gateway.Cache.MessagePack
import Gateway.Http.Message
import Gateway.Text.Quoted

/-! Stored responses: their blob, which never holds a `Set-Cookie`, and their replay. -/
namespace Gateway.Cache

open Gateway.Http

/-- A response held in a cache, with the request header values that it was made for. -/
structure Stored where
  status : Status
  headers : Headers
  body : Bytes
  recorded : Headers
  deriving DecidableEq

namespace Stored

/-- Why a blob holds no response. -/
inductive DecodeError where
  | malformed
  | invalidStatus (n : Nat)
  | invalidHeader (name : Bytes)
  deriving DecidableEq

def DecodeError.message : DecodeError → String
  | malformed => "failed to decode cached response"
  | invalidStatus n => "stored status code " ++ toString n ++ " is invalid"
  | invalidHeader name =>
    "stored header " ++ Text.Quoted.quote (Text.Utf8.display name) ++ " is invalid"

def writePair (field : HeaderName × HeaderValue) : Bytes :=
  MessagePack.writeArray 2 ++ MessagePack.writeText field.1.bytes
    ++ MessagePack.writeOctets field.2.bytes

def writePairs (h : Headers) : Bytes :=
  MessagePack.writeArray h.fields.length ++ h.fields.flatMap writePair

/-- The response as the store keeps it, without its cookies. -/
def withoutCookies (r : Stored) : Stored := { r with headers := r.headers.erase .setCookie }

def encode (r : Stored) : Bytes :=
  MessagePack.writeArray 4 ++ MessagePack.writeUnsigned r.status.code
    ++ writePairs r.withoutCookies.headers ++ MessagePack.writeOctets r.body
    ++ writePairs r.recorded

/-- The four parts of a blob, not yet checked for what they may hold. -/
structure Parts where
  status : Nat
  headers : List (Bytes × Bytes)
  body : Bytes
  recorded : List (Bytes × Bytes)

def utf8? (bs : Bytes) : Option Bytes := (Text.Utf8.decode? bs).map fun _ => bs

def name? (bs : Bytes) : Option (Bytes × Bytes) := do
  match ← MessagePack.Head.read? bs with
  | (.text content, rest) => (utf8? content).map (·, rest)
  | (.octets content, rest) => (utf8? content).map (·, rest)
  | _ => none

def pair? (bs : Bytes) : Option ((Bytes × Bytes) × Bytes) := do
  match ← MessagePack.Head.read? bs with
  | (.array 2, rest) =>
    let (name, rest) ← name? rest
    let (value, rest) ← MessagePack.octets? rest
    some ((name, value), rest)
  | _ => none

def pairs? (bs : Bytes) : Option (List (Bytes × Bytes) × Bytes) := do
  match ← MessagePack.Head.read? bs with
  | (.array n, rest) => MessagePack.repeat? pair? n rest
  | _ => none

/-- The parts of a blob written as a map, as far as they have been read. -/
structure PartialParts where
  status : Option Nat
  headers : Option (List (Bytes × Bytes))
  body : Option Bytes
  recorded : Option (List (Bytes × Bytes))

inductive FieldName where
  | status
  | headers
  | body
  | recorded
  | unknown

/-- A field is named by its text or by its position. -/
def fieldName? (bs : Bytes) : Option (FieldName × Bytes) := do
  match ← MessagePack.Head.read? bs with
  | (.unsigned n, rest) => some (match n with
    | 0 => .status
    | 1 => .headers
    | 2 => .body
    | 3 => .recorded
    | _ => .unknown, rest)
  | (.text name, rest) | (.octets name, rest) =>
    some (if name = .ofLatin1 "status" then .status
      else if name = .ofLatin1 "headers" then .headers
      else if name = .ofLatin1 "body" then .body
      else if name = .ofLatin1 "variant_headers" then .recorded
      else .unknown, rest)
  | _ => none

/-- How deep a field that is not known may nest. -/
def maxDepth : Nat := 1022

def field? (p : PartialParts) (bs : Bytes) : Option (PartialParts × Bytes) := do
  match ← fieldName? bs with
  | (.status, rest) =>
    if p.status.isSome then none
    else (MessagePack.integer? UInt16.size rest).map fun (n, rest) =>
      ({ p with status := some n }, rest)
  | (.headers, rest) =>
    if p.headers.isSome then none
    else (pairs? rest).map fun (ps, rest) => ({ p with headers := some ps }, rest)
  | (.body, rest) =>
    if p.body.isSome then none
    else (MessagePack.octets? rest).map fun (b, rest) => ({ p with body := some b }, rest)
  | (.recorded, rest) =>
    if p.recorded.isSome then none
    else (pairs? rest).map fun (ps, rest) => ({ p with recorded := some ps }, rest)
  | (.unknown, rest) => (MessagePack.skip? maxDepth rest).map fun rest => (p, rest)

def entries? : Nat → PartialParts → Bytes → Option PartialParts
  | 0, p, _ => some p
  | n + 1, p, bs => do
    let (p, rest) ← field? p bs
    entries? n p rest

/-- Reads the parts, as an array in their order or as a map; what follows them is ignored. -/
def Parts.read? (bs : Bytes) : Option Parts := do
  match ← MessagePack.Head.read? bs with
  | (.array 4, rest) =>
    let (status, rest) ← MessagePack.integer? UInt16.size rest
    let (headers, rest) ← pairs? rest
    let (body, rest) ← MessagePack.octets? rest
    let (recorded, _) ← pairs? rest
    some ⟨status, headers, body, recorded⟩
  | (.map n, rest) =>
    match ← entries? n ⟨none, none, none, none⟩ rest with
    | ⟨some status, some headers, some body, some recorded⟩ =>
      some ⟨status, headers, body, recorded⟩
    | _ => none
  | _ => none

/-- Checks the pairs in order; the first bad one is named. -/
def checkPairs : List (Bytes × Bytes) → Except DecodeError (List (HeaderName × HeaderValue))
  | [] => .ok []
  | (name, value) :: rest =>
    match HeaderName.ofBytes? name, HeaderValue.ofBytes? value with
    | some n, some v => (checkPairs rest).map ((n, v) :: ·)
    | _, _ => .error (.invalidHeader name)

/-- Checks the status, then the headers, then the recorded headers. -/
def ofParts (p : Parts) : Except DecodeError Stored :=
  match Status.ofNat? p.status with
  | none => .error (.invalidStatus p.status)
  | some status => do
    let headers ← checkPairs p.headers
    let recorded ← checkPairs p.recorded
    .ok ⟨status, .ofFields headers, p.body, .ofFields recorded⟩

def decode (blob : Bytes) : Except DecodeError Stored :=
  match Parts.read? blob with
  | none => .error .malformed
  | some p => ofParts p

/-- Some element of the request's `If-None-Match` lines is the stored entity tag. -/
def etagMatches (r : Stored) (request : Headers) : Bool :=
  match r.headers.get? .etag with
  | none => false
  | some etag => (request.values .ifNoneMatch).any fun v =>
    (Bytes.splitOn 44 v.bytes).any fun element => Bytes.trim element == etag.bytes

/-- The value of `X-Cache` on a replayed response. -/
def hitMark : HeaderValue := ⟨.ofLatin1 "hit", by decide⟩

/-- The head and body that answer a request from the store: the stored ones, or only the head with
status 304 when the request names the stored entity tag. -/
def replay (r : Stored) (request : Headers) : ResponseHead × Bytes :=
  let headers := r.headers.insert .xCache hitMark
  if r.etagMatches request then (⟨.notModified, headers⟩, []) else (⟨r.status, headers⟩, r.body)

end Stored

end Gateway.Cache
