import Gateway.Http.Header

/-! Request methods. -/
namespace Gateway.Http

def isMethod (bs : Bytes) : Bool := !bs.isEmpty && bs.all isTokenByte

/-- A request method: any token, letter case kept. -/
structure Method where
  bytes : Bytes
  valid : isMethod bytes = true
  deriving DecidableEq

namespace Method

def ofBytes? (raw : Bytes) : Option Method :=
  if h : isMethod raw = true then some ⟨raw, h⟩ else none

def get : Method := ⟨.ofLatin1 "GET", by decide⟩

def head : Method := ⟨.ofLatin1 "HEAD", by decide⟩

instance : Inhabited Method := ⟨get⟩

end Method

end Gateway.Http
