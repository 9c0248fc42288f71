import Gateway.Http.Body
import Gateway.Http.Message
import Gateway.Http1.Length

/-! Requests as they are sent over a connection: their target, the framing of their body, and what
becomes of a body that does not keep to it. -/
namespace Gateway.Http1
open Http

/-- A request as the other side receives it. -/
structure Sent where
  method : Method
  target : Bytes
  headers : Headers
  body : Bytes

inductive Framing where
  | bodyless
  | sized (n : Nat)
  | chunked
  deriving DecidableEq

/-- Why the body could not be sent. -/
inductive SendFailure where
  /-- It is longer than is allowed. -/
  | tooLong
  /-- Its source failed. -/
  | broken
  /-- It is shorter than its header says. -/
  | short
  deriving DecidableEq

/-- Methods whose requests have no body unless its length is known. -/
def isBodylessMethod (m : Method) : Bool :=
  m == .get || m == .head || m.bytes == .ofLatin1 "CONNECT"

/-- What a body of a known size says under a limit: no more than the limit. -/
def limitedSize? (limit : Option Nat) (size : Option Nat) : Option Nat :=
  match size, limit with
  | some n, some l => some (min n l)
  | some n, none => some n
  | none, some 0 => some 0
  | none, _ => none

/-- How the body is framed, and the headers that say so. A length that the headers already give is
kept. -/
def frame (m : Method) (h : Headers) (ended : Bool) (size : Option Nat) : Headers × Framing :=
  if ended then (h.erase .transferEncoding, .bodyless)
  else if h.contains .transferEncoding then
    let h := h.erase .contentLength
    if isChunked h then (h, .chunked)
    else (h.append .transferEncoding (.ofLatin1 "chunked" (by decide)), .chunked)
  else match contentLength? h, size with
    | some n, _ => (h, .sized n)
    | none, some n => (h.insert .contentLength (.ofNat n), .sized n)
    | none, none =>
      if isBodylessMethod m then (h, .bodyless)
      else (h.insert .transferEncoding (.ofLatin1 "chunked" (by decide)), .chunked)

/-- Reads a body to send it. `room` is what the framing still takes: nothing is read when it is used
up. `limit` is what is still allowed. -/
def collect (room limit : Option Nat) : List (Polled × BodyReport) → Except SendFailure Bytes
  | [] => if room.any (0 < ·) then .error .short else .ok []
  | (answer, _) :: rest =>
    if room = some 0 then .ok []
    else match answer with
      | .frame (.data bs) =>
        if limit.any (· < bs.length) then .error .tooLong
        else do
          let part := match room with
            | some r => bs.take r
            | none => bs
          let after ← collect (room.map (· - part.length)) (limit.map (· - bs.length)) rest
          .ok (part ++ after)
      | .failed => .error .broken
      | .ended => if room.any (0 < ·) then .error .short else .ok []
      | .frame (.trailers _) | .pending => collect room limit rest

/-- The target as it stands in the request line. -/
def requestTarget (r : RequestHead) : Bytes :=
  if r.method.bytes == .ofLatin1 "CONNECT" then (r.uri.authority.map (·.bytes)).getD []
  else r.uri.pathAndQuery

/-- Sends a request whose body may be no longer than the limit. -/
def send (r : RequestHead) (body : Body) (limit : Option Nat) : Except SendFailure Sent :=
  let size := limitedSize? limit body.report.exactSize
  let (headers, framing) := frame r.method r.headers body.report.endStream size
  let sent (bytes : Bytes) : Sent := ⟨r.method, requestTarget r, headers, bytes⟩
  match framing with
  | .bodyless => .ok (sent [])
  | .sized n => (collect (some n) limit body.polls).map sent
  | .chunked => (collect none limit body.polls).map sent

end Gateway.Http1
