import Gateway.Text.Utf8

/-! Request targets and absolute URIs: what each part may hold, reading and writing. -/
namespace Gateway.Http

inductive Scheme where
  | http
  | https
  | other (name : Bytes)
  deriving DecidableEq

namespace Scheme

def text : Scheme → Bytes
  | http => .ofLatin1 "http"
  | https => .ofLatin1 "https"
  | other name => name

def isByte (b : UInt8) : Bool := Bytes.isAlphanumeric b || b == 43 || b == 45 || b == 46

/-- The longest scheme that is neither `http` nor `https`. -/
def maxLength : Nat := 64

/-- The two standard schemes are recognised in any case. -/
def ofBytes (name : Bytes) : Scheme :=
  if Bytes.eqIgnoreCase name http.text then http
  else if Bytes.eqIgnoreCase name https.text then https
  else other name

end Scheme

/-- What a scan of an authority has seen: colons since the last at sign or bracket, the two
brackets, and a percent sign that neither has yet excused. -/
structure AuthorityScan where
  colons : Nat
  opened : Bool
  closed : Bool
  percent : Bool

namespace AuthorityScan

def start : AuthorityScan := ⟨0, false, false, false⟩

/-- The most colons between brackets and at signs. -/
def maxColons : Nat := 8

def step? (s : AuthorityScan) (b : UInt8) : Option AuthorityScan :=
  if b == 58 then if s.colons ≥ maxColons then none else some { s with colons := s.colons + 1 }
  else if b == 91 then if s.percent || s.opened then none else some { s with opened := true }
  else if b == 93 then
    if !s.opened || s.closed then none
    else some { s with closed := true, colons := 0, percent := false }
  else if b == 64 then some { s with colons := 0, percent := false }
  else if b == 37 then some { s with percent := true }
  else if Bytes.isAlphanumeric b || (Bytes.ofLatin1 "!$&'()*+,-.;=_~").contains b then some s
  else none

def run? (s : AuthorityScan) : Bytes → Option AuthorityScan
  | [] => some s
  | b :: rest => (s.step? b).bind fun t => t.run? rest

end AuthorityScan

/-- User information, host and port; the port is not checked to be a number. -/
def isAuthority (bs : Bytes) : Bool :=
  match AuthorityScan.start.run? bs with
  | none => false
  | some s => s.opened == s.closed && decide (s.colons ≤ 1) && !s.percent
      && !bs.isEmpty && bs.getLast? != some 64

structure Authority where
  bytes : Bytes
  valid : isAuthority bytes = true
  deriving DecidableEq

namespace Authority

def ofBytes? (raw : Bytes) : Option Authority :=
  if h : isAuthority raw = true then some ⟨raw, h⟩ else none

/-- Host and port: what follows the last at sign. -/
def hostPort (a : Authority) : Bytes := (a.bytes.reverse.takeWhile (· != 64)).reverse

/-- The host, an address in brackets with its brackets. -/
def host (a : Authority) : Bytes :=
  if a.hostPort.head? == some 91 then a.hostPort.takeWhile (· != 93) ++ [93]
  else a.hostPort.takeWhile (· != 58)

/-- The number after the last colon; other text there is no port. -/
def port? (a : Authority) : Option UInt16 :=
  if a.bytes.contains 58 then
    (Bytes.unsigned? 65536 (a.bytes.reverse.takeWhile (· != 58)).reverse).map (·.toUInt16)
  else none

end Authority

def isPathByte (b : UInt8) : Bool :=
  b == 0x21 || b == 0x22 || (0x24 ≤ b && b ≤ 0x3B) || b == 0x3D || (0x40 ≤ b && b ≤ 0x5F)
    || (0x61 ≤ b && b ≤ 0x7E) || 0x80 ≤ b

def isQueryByte (b : UInt8) : Bool :=
  b == 0x21 || (0x24 ≤ b && b ≤ 0x3B) || b == 0x3D || (0x3F ≤ b && b ≤ 0x7E) || 0x80 ≤ b

/-- A URI reference as a request may carry it: a path with an optional query, the same after a
scheme and an authority, or an authority alone. -/
structure Uri where
  scheme : Option Scheme
  authority : Option Authority
  /-- The path as written, possibly empty. -/
  rawPath : Bytes
  query : Option Bytes
  path_valid : rawPath.all isPathByte = true
  query_valid : ∀ q ∈ query, q.all isQueryByte = true
  deriving DecidableEq

namespace Uri

/-- The longest text in octets. -/
def maxLength : Nat := 65534

/-- The path; an empty one after a scheme counts as the root, an authority alone has none. -/
def path (u : Uri) : Bytes :=
  if u.rawPath.isEmpty && u.scheme.isSome then [47] else u.rawPath

/-- The path as written and the query, the root for nothing at all. -/
def pathAndQuery (u : Uri) : Bytes :=
  let whole := u.rawPath ++ (match u.query with
    | some q => 63 :: q
    | none => [])
  if whole.isEmpty then [47] else whole

def text (u : Uri) : Bytes :=
  (match u.scheme with
    | some s => s.text ++ .ofLatin1 "://"
    | none => [])
  ++ (match u.authority with
    | some a => a.bytes
    | none => [])
  ++ u.path
  ++ (match u.query with
    | some q => 63 :: q
    | none => [])

/-- Puts the parts together when path and query hold allowed octets and UTF-8. -/
def ofParts? (scheme : Option Scheme) (authority : Option Authority) (path : Bytes)
    (query : Option Bytes) : Option Uri :=
  if hp : path.all isPathByte = true then
    if hq : ∀ q ∈ query, q.all isQueryByte = true then
      if (Text.Utf8.decode? path).isSome && (Text.Utf8.decode? (query.getD [])).isSome then
        some ⟨scheme, authority, path, query, hp, hq⟩
      else none
    else none
  else none

/-- Path, then a query after a question mark; a fragment is dropped. -/
def readPath? (scheme : Option Scheme) (authority : Option Authority) (s : Bytes) : Option Uri :=
  let path := s.takeWhile fun b => b != 63 && b != 35
  match s.dropWhile fun b => b != 63 && b != 35 with
  | 63 :: rest => ofParts? scheme authority path (some (rest.takeWhile (· != 35)))
  | _ => ofParts? scheme authority path none

def endsAuthority (b : UInt8) : Bool := b == 47 || b == 63 || b == 35

def parse? (s : Bytes) : Option Uri :=
  if maxLength < s.length then none
  else if s == [42] then ofParts? none none s none
  else if s.head? == some 47 then readPath? none none s
  else
    let name := s.takeWhile Scheme.isByte
    match s.dropWhile Scheme.isByte with
    | 58 :: 47 :: 47 :: rest =>
      let scheme := Scheme.ofBytes name
      if name.length > Scheme.maxLength then none
      else do
        let authority ← Authority.ofBytes? (rest.takeWhile (!endsAuthority ·))
        readPath? (some scheme) (some authority) (rest.dropWhile (!endsAuthority ·))
    | _ => do
      let authority ← Authority.ofBytes? s
      ofParts? none (some authority) [] none

end Uri

end Gateway.Http
