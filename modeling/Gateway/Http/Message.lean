import Gateway.Http.Headers
import Gateway.Http.Method
import Gateway.Http.Uri

/-! Request and response heads. -/
namespace Gateway.Http

structure RequestHead where
  method : Method
  uri : Uri
  headers : Headers
  deriving DecidableEq

/-- A status code of three digits. -/
structure Status where
  code : Nat
  valid : 100 ≤ code ∧ code ≤ 999
  deriving DecidableEq

namespace Status

def ofNat? (n : Nat) : Option Status := if h : 100 ≤ n ∧ n ≤ 999 then some ⟨n, h⟩ else none

def switchingProtocols : Status := ⟨101, by decide⟩
def ok : Status := ⟨200, by decide⟩
def partialContent : Status := ⟨206, by decide⟩
def movedPermanently : Status := ⟨301, by decide⟩
def notModified : Status := ⟨304, by decide⟩
def notFound : Status := ⟨404, by decide⟩
def requestTimeout : Status := ⟨408, by decide⟩
def preconditionFailed : Status := ⟨412, by decide⟩
def contentTooLarge : Status := ⟨413, by decide⟩
def rangeNotSatisfiable : Status := ⟨416, by decide⟩
def internalServerError : Status := ⟨500, by decide⟩
def badGateway : Status := ⟨502, by decide⟩

instance : Inhabited Status := ⟨ok⟩

end Status

structure ResponseHead where
  status : Status
  headers : Headers

end Gateway.Http
