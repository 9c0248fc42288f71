import Gateway.Bytes

/-! Header names and header values: what each may hold is part of its type. -/
namespace Gateway.Http

/-- The octets of an HTTP token. -/
def isTokenByte (b : UInt8) : Bool :=
  Bytes.isAlphanumeric b || (Bytes.ofLatin1 "!#$%&'*+-.^_\x60|~").contains b

/-- The longest header name in octets. -/
def maxNameLength : Nat := 65535

/-- A token without upper-case letters, of at most `maxNameLength` octets. -/
def isHeaderName (bs : Bytes) : Bool :=
  !bs.isEmpty && decide (bs.length ≤ maxNameLength)
    && bs.all (fun b => isTokenByte b && !Bytes.isUpper b)

/-- A header name in its lower-case spelling. -/
structure HeaderName where
  bytes : Bytes
  valid : isHeaderName bytes = true
  deriving DecidableEq

/-- Octets from 0x20 on without 0x7F, and the tab. -/
def isValueByte (b : UInt8) : Bool := (32 ≤ b && b != 127) || b == 9

/-- A header value, which may be empty. -/
structure HeaderValue where
  bytes : Bytes
  valid : bytes.all isValueByte = true
  deriving DecidableEq

namespace HeaderName

/-- Reads a name of any case. -/
def ofBytes? (raw : Bytes) : Option HeaderName :=
  if h : isHeaderName (Bytes.lower raw) = true then some ⟨Bytes.lower raw, h⟩ else none

def acceptEncoding : HeaderName := ⟨.ofLatin1 "accept-encoding", by decide⟩
def acceptRanges : HeaderName := ⟨.ofLatin1 "accept-ranges", by decide⟩
def cacheControl : HeaderName := ⟨.ofLatin1 "cache-control", by decide⟩
def connection : HeaderName := ⟨.ofLatin1 "connection", by decide⟩
def contentEncoding : HeaderName := ⟨.ofLatin1 "content-encoding", by decide⟩
def contentLength : HeaderName := ⟨.ofLatin1 "content-length", by decide⟩
def contentRange : HeaderName := ⟨.ofLatin1 "content-range", by decide⟩
def contentType : HeaderName := ⟨.ofLatin1 "content-type", by decide⟩
def etag : HeaderName := ⟨.ofLatin1 "etag", by decide⟩
def host : HeaderName := ⟨.ofLatin1 "host", by decide⟩
def ifModifiedSince : HeaderName := ⟨.ofLatin1 "if-modified-since", by decide⟩
def ifNoneMatch : HeaderName := ⟨.ofLatin1 "if-none-match", by decide⟩
def ifUnmodifiedSince : HeaderName := ⟨.ofLatin1 "if-unmodified-since", by decide⟩
def keepAlive : HeaderName := ⟨.ofLatin1 "keep-alive", by decide⟩
def lastModified : HeaderName := ⟨.ofLatin1 "last-modified", by decide⟩
def location : HeaderName := ⟨.ofLatin1 "location", by decide⟩
def proxyAuthenticate : HeaderName := ⟨.ofLatin1 "proxy-authenticate", by decide⟩
def proxyAuthorization : HeaderName := ⟨.ofLatin1 "proxy-authorization", by decide⟩
def proxyConnection : HeaderName := ⟨.ofLatin1 "proxy-connection", by decide⟩
def range : HeaderName := ⟨.ofLatin1 "range", by decide⟩
def setCookie : HeaderName := ⟨.ofLatin1 "set-cookie", by decide⟩
def te : HeaderName := ⟨.ofLatin1 "te", by decide⟩
def trailer : HeaderName := ⟨.ofLatin1 "trailer", by decide⟩
def transferEncoding : HeaderName := ⟨.ofLatin1 "transfer-encoding", by decide⟩
def upgrade : HeaderName := ⟨.ofLatin1 "upgrade", by decide⟩
def userAgent : HeaderName := ⟨.ofLatin1 "user-agent", by decide⟩
def vary : HeaderName := ⟨.ofLatin1 "vary", by decide⟩
def xCache : HeaderName := ⟨.ofLatin1 "x-cache", by decide⟩
def xForwardedFor : HeaderName := ⟨.ofLatin1 "x-forwarded-for", by decide⟩
def xForwardedHost : HeaderName := ⟨.ofLatin1 "x-forwarded-host", by decide⟩
def xForwardedProto : HeaderName := ⟨.ofLatin1 "x-forwarded-proto", by decide⟩
def xRequestId : HeaderName := ⟨.ofLatin1 "x-request-id", by decide⟩
def xRequestStart : HeaderName := ⟨.ofLatin1 "x-request-start", by decide⟩
def xSendfile : HeaderName := ⟨.ofLatin1 "x-sendfile", by decide⟩
def xSendfileType : HeaderName := ⟨.ofLatin1 "x-sendfile-type", by decide⟩

/-- Byte order. -/
def le (a b : HeaderName) : Bool := decide (a.bytes ≤ b.bytes)

end HeaderName

namespace HeaderValue

def ofBytes? (raw : Bytes) : Option HeaderValue :=
  if h : raw.all isValueByte = true then some ⟨raw, h⟩ else none

/-- Visible ASCII, spaces and tabs only: such a value can be read as text. -/
def isReadable (v : HeaderValue) : Bool := v.bytes.all fun b => (32 ≤ b && b < 127) || b == 9

/-- The value as text, when it can be read as text. -/
def text? (v : HeaderValue) : Option Bytes := if v.isReadable then some v.bytes else none

def ofLatin1 (s : String) (h : (Bytes.ofLatin1 s).all isValueByte = true) : HeaderValue :=
  ⟨.ofLatin1 s, h⟩

theorem ofNat_valid (n : Nat) : (Bytes.ofNat n).all isValueByte = true := by
  simp only [Bytes.ofNat, List.all_map, List.all_eq_true, Function.comp]
  intro c hc
  have hd := Nat.isDigit_of_mem_toDigits (by decide) (by decide) hc
  simp only [Char.isDigit, Bool.and_eq_true, decide_eq_true_eq, UInt32.le_iff_toNat_le] at hd
  have h1 : 48 ≤ c.toNat := hd.1
  have h2 : c.toNat ≤ 57 := hd.2
  have h3 : c.toNat.toUInt8.toNat = c.toNat := by
    simp only [Nat.toUInt8, UInt8.toNat_ofNat']
    omega
  have h4 : (32 : UInt8) ≤ c.toNat.toUInt8 := by
    rw [UInt8.le_iff_toNat_le, h3]
    exact Nat.le_trans (by decide) h1
  have h5 : c.toNat.toUInt8 ≠ 127 := by
    intro h
    have := congrArg UInt8.toNat h
    rw [h3] at this
    have : c.toNat = 127 := this
    omega
  simp [isValueByte, h4, h5]

/-- The decimal digits of a number. -/
def ofNat (n : Nat) : HeaderValue := ⟨Bytes.ofNat n, ofNat_valid n⟩

end HeaderValue

end Gateway.Http
