import Gateway.Config.Punycode
import Gateway.Net.Address
import Gateway.Text.Utf8

/-! URLs as people write them: blanks and backslashes are forgiven, hosts are checked. Only what a
target's check needs is kept: the scheme, the host's kind and the port. -/
namespace Gateway.Config
open Net

inductive UrlError where
  | relative
  | emptyHost
  | invalidPort
  | invalidIpv4
  | invalidIpv6
  | invalidDomain
  | invalidHostCharacter
  deriving DecidableEq

def UrlError.text : UrlError → String
  | relative => "relative URL without a base"
  | emptyHost => "empty host"
  | invalidPort => "invalid port number"
  | invalidIpv4 => "invalid IPv4 address"
  | invalidIpv6 => "invalid IPv6 address"
  | invalidDomain => "invalid international domain name"
  | invalidHostCharacter => "invalid domain character"

inductive UrlHost where
  | domain (name : List Char)
  | ipv4 (number : Nat)
  | ipv6 (ip : Ipv6)

/-- A scheme in lower case, a host if there is one, and a port other than the scheme's own. -/
structure Url where
  scheme : String
  host : Option UrlHost
  port : Option UInt16

namespace Url

def isSchemeChar (c : Char) : Bool := c.isAlphanum || c = '+' || c = '-' || c = '.'

/-- The text without blanks and control characters at its ends, and without tabs and newlines. -/
def cleaned (text : String) : List Char :=
  let isOuter (c : Char) : Bool := c.toNat ≤ 0x20
  let inner := ((text.toList.dropWhile isOuter).reverse.dropWhile isOuter).reverse
  inner.filter fun c => c ≠ '\t' && c ≠ '\n' && c ≠ '\r'

/-- The scheme in lower case and what follows its colon. -/
def splitScheme? (cs : List Char) : Option (String × List Char) :=
  match cs.head?, cs.dropWhile isSchemeChar with
  | some c, ':' :: rest =>
    if c.isAlpha then some (String.ofList ((cs.takeWhile isSchemeChar).map Char.toLower), rest) else none
  | _, _ => none

/-- Where URLs that name no port lead, for each scheme whose URLs always have a host. -/
def defaultPort? (scheme : String) : Option Nat :=
  match scheme with
  | "http" | "ws" => some 80
  | "https" | "wss" => some 443
  | "ftp" => some 21
  | _ => none

def isHosted (scheme : String) : Bool := (defaultPort? scheme).isSome

def endsAuthority (hosted : Bool) (c : Char) : Bool :=
  c = '/' || c = '?' || c = '#' || (hosted && c = '\\')

/-- The user information and what follows the last at sign of the authority. -/
def splitUser (hosted : Bool) (cs : List Char) : Option (List Char) × List Char :=
  let authority := cs.takeWhile (!endsAuthority hosted ·)
  if authority.contains '@' then
    let afterAt := (authority.reverse.takeWhile (· ≠ '@')).reverse
    (some (authority.take (authority.length - afterAt.length - 1)),
      afterAt ++ cs.dropWhile (!endsAuthority hosted ·))
  else (none, cs)

/-- The host, up to a colon outside brackets or the end of the authority, and what follows. -/
def splitHost (hosted : Bool) (inBrackets : Bool) : List Char → List Char × List Char
  | [] => ([], [])
  | c :: rest =>
    if (c = ':' && !inBrackets) || endsAuthority hosted c then ([], c :: rest)
    else
      let inside := if c = '[' then true else if c = ']' then false else inBrackets
      let (host, after) := splitHost hosted inside rest
      (c :: host, after)

/-- Octets for percent signs with two hexadecimal digits. -/
def percentDecode : List Char → Bytes
  | '%' :: hi :: lo :: rest =>
    match Bytes.hexValue? hi, Bytes.hexValue? lo with
    | some h, some l => (h * 16 + l).toUInt8 :: percentDecode rest
    | _, _ => 37 :: percentDecode (hi :: lo :: rest)
  | c :: rest => Text.Utf8.encodeChar c ++ percentDecode rest
  | [] => []

/-- One part of a dotted number: `none` when it is none, `some none` when it is too large. -/
def ipv4Part? (part : List Char) : Option (Option Nat) :=
  let number (radix : Nat) (ds : List Char) : Option (Option Nat) :=
    if ds.isEmpty then some (some 0)
    else if ds.all fun c => (Bytes.hexValue? c).any (· < radix) then
      let n := ds.foldl (fun n c => n * radix + (Bytes.hexValue? c).getD 0) 0
      some (if n < UInt32.size then some n else none)
    else none
  match part with
  | [] => none
  | '0' :: 'x' :: rest => number 16 rest
  | '0' :: 'X' :: rest => number 16 rest
  | '0' :: d :: rest => number 8 (d :: rest)
  | ds => number 10 ds

def splitDots : List Char → List (List Char)
  | [] => [[]]
  | c :: rest =>
    if c = '.' then [] :: splitDots rest
    else match splitDots rest with
      | part :: parts => (c :: part) :: parts
      | [] => [[c]]

/-- The parts of a name without the empty one after a final dot. -/
def hostParts (name : List Char) : List (List Char) :=
  let parts := splitDots name
  if 1 < parts.length && parts.getLast? == some [] then parts.dropLast else parts

/-- A name whose last part is a number has to be an IPv4 address. -/
def endsInNumber (name : List Char) : Bool :=
  match (hostParts name).getLast? with
  | some last => (!last.isEmpty && last.all Char.isDigit) || (ipv4Part? last).isSome
  | none => false

/-- One to four numbers; the last one stands for all octets that are left. -/
def ipv4? (name : List Char) : Option Nat := do
  let parts := hostParts name
  guard (parts.length ≤ 4)
  let numbers ← parts.mapM fun part => (ipv4Part? part).bind id
  let last ← numbers.getLast?
  let front := numbers.dropLast
  guard (last < Nat.pow 256 (4 - front.length) && front.all (· < 256))
  some (front.foldl (fun n x => n * 256 + x) 0 * Nat.pow 256 (4 - front.length) + last)

def bracketed? (host : List Char) : Except UrlError UrlHost :=
  match host.getLast? with
  | some ']' => match Ipv6.parse? (Text.Utf8.encodeChars host.tail.dropLast) with
    | some ip => .ok (.ipv6 ip)
    | none => .error .invalidIpv6
  | _ => .error .invalidIpv6

/-- The host of a scheme that always has one. -/
def host? (cs : List Char) : Except UrlError UrlHost :=
  if cs.head? = some '[' then bracketed? cs
  else match Domain.toAscii? (percentDecode cs) with
    | none => .error .invalidDomain
    | some name =>
      if name.isEmpty then .error .emptyHost
      else if endsInNumber name then match ipv4? name with
        | some n => .ok (.ipv4 n)
        | none => .error .invalidIpv4
      else .ok (.domain name)

/-- The host of any other scheme, which may be empty. -/
def opaqueHost? (cs : List Char) : Except UrlError UrlHost :=
  if cs.head? = some '[' then bracketed? cs
  else if cs.any fun c => c.toNat = 0 || " #/:<>?@[\\]^|".toList.contains c then
    .error .invalidHostCharacter
  else .ok (.domain cs)

/-- The digits after a colon; the end of the authority must follow them. -/
def port? (cs : List Char) : Except UrlError (Option Nat) :=
  let ds := cs.takeWhile Char.isDigit
  let n := ds.foldl (fun n c => n * 10 + (c.toNat - 48)) 0
  if 65535 < n then .error .invalidPort
  else match cs.dropWhile Char.isDigit with
    | [] => .ok (if ds.isEmpty then none else some n)
    | c :: _ =>
      if endsAuthority true c then .ok (if ds.isEmpty then none else some n)
      else .error .invalidPort

def isEmptyDomain : UrlHost → Bool
  | .domain [] => true
  | _ => false

/-- What follows two slashes. -/
def authority (scheme : String) (cs : List Char) : Except UrlError Url := do
  let hosted := isHosted scheme
  let (user, rest) := splitUser hosted cs
  if user = some [] && rest.head?.any (endsAuthority hosted) then throw .emptyHost
  let (hostText, rest) := splitHost hosted false rest
  if hosted && hostText.isEmpty then throw .emptyHost
  let host ← if hosted then host? hostText else opaqueHost? hostText
  let colon := rest.head? = some ':'
  if isEmptyDomain host && (colon || hosted) then throw .emptyHost
  let port ← if colon then port? rest.tail else pure none
  let named := user.any fun u => !u.isEmpty && u != [':']
  if isEmptyDomain host && named then throw .emptyHost
  let shown := port.filter fun p => some p != defaultPort? scheme
  pure ⟨scheme, if isEmptyDomain host then none else some host, shown.map (·.toUInt16)⟩

def isSlash (c : Char) : Bool := c = '/' || c = '\\'

def isDriveLetter (cs : List Char) : Bool :=
  match cs with
  | [c, d] => c.isAlpha && (d = ':' || d = '|')
  | _ => false

/-- A file's URL; its host is checked, and there is no port. -/
def file (cs : List Char) : Except UrlError Url :=
  match cs with
  | a :: b :: rest =>
    let hostText := rest.takeWhile (!endsAuthority true ·)
    if isSlash a && isSlash b && !hostText.isEmpty && !isDriveLetter hostText then do
      let host ← host? hostText
      pure ⟨"file", some host, none⟩
    else pure ⟨"file", none, none⟩
  | _ => pure ⟨"file", none, none⟩

def parse (text : String) : Except UrlError Url :=
  match splitScheme? (cleaned text) with
  | none => .error .relative
  | some (scheme, rest) =>
    if scheme = "file" then file rest
    else if isHosted scheme then authority scheme (rest.dropWhile isSlash)
    else match rest with
      | '/' :: '/' :: rest => authority scheme rest
      | _ => .ok ⟨scheme, none, none⟩

end Url

end Gateway.Config
