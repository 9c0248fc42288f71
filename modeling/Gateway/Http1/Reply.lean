import Gateway.Http.Body
import Gateway.Http.Message
import Gateway.Http1.Length

/-! Responses read from a connection that is closed after them. -/
namespace Gateway.Http1
open Http

/-- The octets before the next line feed, without a carriage return at their end, and what follows;
`none` when there is no line feed. -/
def line? (bs : Bytes) : Option (Bytes × Bytes) :=
  (Bytes.splitFirst? 10 bs).map fun (line, rest) =>
    (if line.getLast? = some 13 then line.dropLast else line, rest)

def isReasonByte (b : UInt8) : Bool := b == 9 || (32 ≤ b && b != 127)

def isSpace (b : UInt8) : Bool := b == 32 || b == 9

/-- Reads a status line: whether it is of version 1.0, and the status. -/
def statusLine? (line : Bytes) : Option (Bool × Status) := do
  let version := line.take 9
  guard (version == Bytes.ofLatin1 "HTTP/1.1 " || version == Bytes.ofLatin1 "HTTP/1.0 ")
  let code := (line.drop 9).take 3
  guard (code.length == 3)
  let status ← (Bytes.decimal? code).bind Status.ofNat?
  match line.drop 12 with
  | [] => some (version == Bytes.ofLatin1 "HTTP/1.0 ", status)
  | 32 :: reason =>
    if reason.all isReasonByte then some (version == Bytes.ofLatin1 "HTTP/1.0 ", status) else none
  | _ => none

/-- A name, a colon right after it, and a value; blanks around the value do not count. -/
def fieldLine? (line : Bytes) : Option (HeaderName × HeaderValue) := do
  let (name, value) ← Bytes.splitFirst? 58 line
  some (← HeaderName.ofBytes? name, ← HeaderValue.ofBytes? (Bytes.trimWhile isSpace value))

/-- The most header lines of one message. -/
def maxFields : Nat := 100

/-- Header lines up to an empty one, and what follows it. -/
def fields? : Nat → Bytes → Option (List (HeaderName × HeaderValue) × Bytes)
  | 0, bs => (line? bs).bind fun (line, rest) => if line.isEmpty then some ([], rest) else none
  | n + 1, bs => do
    let (line, rest) ← line? bs
    if line.isEmpty then some ([], rest)
    else
      let field ← fieldLine? line
      let (more, rest) ← fields? n rest
      some (field :: more, rest)

/-- A head as it was read. -/
structure ReplyHead where
  oldVersion : Bool
  head : ResponseHead
  rest : Bytes

def replyHead? (bs : Bytes) : Option ReplyHead := do
  let (line, rest) ← line? bs
  let (oldVersion, status) ← statusLine? line
  let (fs, rest) ← fields? maxFields rest
  some ⟨oldVersion, ⟨status, .ofFields fs⟩, rest⟩

/-- A status that only tells that the answer is still to come. -/
def isInterim (s : Status) : Bool := s.code < 200 && s.code != 101

/-- The head of the answer itself; heads that only announce it are passed over. -/
def finalHead? : Nat → Bytes → Option ReplyHead
  | 0, _ => none
  | fuel + 1, bs => do
    let r ← replyHead? bs
    if isInterim r.head.status then finalHead? fuel r.rest else some r

/-- The octets without empty lines in front. -/
def skipEmptyLines : Bytes → Bytes
  | 13 :: 10 :: rest => skipEmptyLines rest
  | 10 :: rest => skipEmptyLines rest
  | bs => bs

/-- A chunk's size and extensions, up to the end of the line. -/
def chunkSize? (bs : Bytes) : Option (Nat × Bytes) := do
  let isHex (b : UInt8) : Bool := (Bytes.hexValue? (Char.ofNat b.toNat)).isSome
  let digits := bs.takeWhile isHex
  guard (!digits.isEmpty)
  let size := digits.foldl
    (fun n b => n * 16 + (Bytes.hexValue? (Char.ofNat b.toNat)).getD 0) 0
  guard (size < UInt64.size)
  let rest := (bs.drop digits.length).dropWhile isSpace
  let afterExtension ← match rest with
    | 59 :: extension =>
      let text := extension.takeWhile (· != 13)
      if text.contains 10 then none else some (extension.drop text.length)
    | _ => some rest
  match afterExtension with
  | 13 :: 10 :: rest => some (size, rest)
  | _ => none

/-- What the last chunk is followed by: trailers, if any, and the end. -/
def trailerPolls (bs : Bytes) : List Polled :=
  match fields? maxFields bs with
  | none => [.failed]
  | some ([], _) => []
  | some (fs, _) => [.frame (.trailers (.ofFields fs))]

/-- The frames of a body in chunks; one that stops short or is ill-formed fails. -/
def chunkPolls : Nat → Bytes → List Polled
  | 0, _ => [.failed]
  | fuel + 1, bs =>
    match chunkSize? bs with
    | none => [.failed]
    | some (0, rest) => trailerPolls rest
    | some (size, rest) =>
      if rest.length < size then
        if rest.isEmpty then [.failed] else [.frame (.data rest), .failed]
      else match rest.drop size with
        | 13 :: 10 :: after => .frame (.data (rest.take size)) :: chunkPolls fuel after
        | _ => [.frame (.data (rest.take size)), .failed]

/-- A body of a known size, which fails when there is less. -/
def sizedBody (size : Nat) (bs : Bytes) : Body :=
  if size ≤ bs.length then .whole (bs.take size)
  else
    let failure : Polled × BodyReport := (.failed, ⟨false, some (size - bs.length)⟩)
    ⟨⟨false, some size⟩,
      if bs.isEmpty then [failure]
      else [(.frame (.data bs), ⟨false, some (size - bs.length)⟩), failure]⟩

/-- Whether an answer has no body whatever its headers say. -/
def isBodyless (m : Method) (s : Status) : Bool :=
  s.code == 101 || s.code == 204 || s.code == 304 || m == .head
    || (m.bytes == Bytes.ofLatin1 "CONNECT" && 200 ≤ s.code && s.code < 300)

/-- The body after a head; `none` when its headers contradict themselves. -/
def replyBody? (m : Method) (r : ReplyHead) : Option Body :=
  if isBodyless m r.head.status then some .empty
  else if r.head.headers.contains .transferEncoding then
    if r.oldVersion then none
    else if isChunked r.head.headers then
      some (.ofPolls (chunkPolls (r.rest.length + 1) r.rest))
    else some (untilClosed r.rest)
  else match contentLength? r.head.headers with
    | some n => if n < UInt64.size - 2 then some (sizedBody n r.rest) else none
    | none => if r.head.headers.contains .contentLength then none else some (untilClosed r.rest)
where
  untilClosed (bs : Bytes) : Body := .ofPolls (if bs.isEmpty then [] else [.frame (.data bs)])

/-- Reads the answer to a request from all that came over the connection. -/
def reply? (m : Method) (bs : Bytes) : Option (Response ResponseHead) := do
  let r ← finalHead? (bs.length + 1) (skipEmptyLines bs)
  some ⟨r.head, ← replyBody? m r⟩

end Gateway.Http1
