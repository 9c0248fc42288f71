import Gateway.Http.Body
import Gateway.Http.Message

/-! The limit on request bodies, first by what their header says. -/
namespace Gateway.Server
open Http

inductive Admission where
  | refused
  /-- The most octets of the body that may be read, when there is a limit. -/
  | granted (limit : Option Nat)
  deriving DecidableEq

/-- A body that is announced to be over the limit is refused at once; any other may not be longer
than the limit, nor than it is announced to be. A limit of 0 is none. -/
def admission (max : Nat) (request : Headers) : Admission :=
  if max = 0 then .granted none
  else match (request.text? .contentLength).bind (Bytes.unsigned? UInt64.size) with
    | none => .granted (some max)
    | some n => if max < n then .refused else .granted (some (min max n))

def refusal : Response ResponseHead :=
  ⟨⟨.contentTooLarge,
      .ofFields [(.contentType, .ofLatin1 "text/plain; charset=utf-8" (by decide))]⟩,
    .whole (.ofLatin1 "length limit exceeded")⟩

end Gateway.Server
