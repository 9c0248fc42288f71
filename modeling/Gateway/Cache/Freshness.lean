import Gateway.Cache.Store
import Gateway.Http.Message

/-! How long a response may be stored. -/
namespace Gateway.Cache

open Gateway.Http

/-- Lifetimes beyond this many seconds are cut to it. -/
def maxLifetime : Nat := Nat.pow 2 31

/-- The lower-cased `Cache-Control` tokens. -/
def directives (headers : Headers) : List Bytes := (headers.tokens .cacheControl).map Bytes.lower

/-- The trimmed value of the first `name=value` token. -/
def directiveValue? (tokens : List Bytes) (name : Bytes) : Option Bytes :=
  tokens.findSome? fun token =>
    match Bytes.splitFirst? 61 token with
    | some (key, value) => if Bytes.trim key = name then some (Bytes.trim value) else none
    | none => none

/-- The value that decides on the lifetime: the shared-cache directives come before `max-age`. -/
def ageValue? (tokens : List Bytes) : Option Bytes :=
  (directiveValue? tokens (.ofLatin1 "s-max-age")).or
    ((directiveValue? tokens (.ofLatin1 "s-maxage")).or
      (directiveValue? tokens (.ofLatin1 "max-age")))

/-- The seconds that a directive's value grants; zero, signs but one plus, and numbers of more than
64 bits grant none. -/
def seconds? (value : Bytes) : Option Nat :=
  ((Bytes.unsigned? UInt64.size (Bytes.trimWhile (· == 34) value)).filter (0 < ·)).map
    (min · maxLifetime)

def statusStorable (status : Status) : Bool :=
  decide (200 ≤ status.code ∧ status.code ≤ 399 ∧ status.code ≠ 304)

/-- No `Vary: *`, a `public` directive and none that begins with `no-cache`. -/
def headersStorable (headers : Headers) : Bool :=
  !(headers.tokens .vary).contains [42]
    && (directives headers).contains (.ofLatin1 "public")
    && !(directives headers).any fun d => (Bytes.ofLatin1 "no-cache").isPrefixOf d

/-- The lifetime in seconds of a response whose body was captured whole, if it may be stored. -/
def lifetime? (status : Status) (headers : Headers) : Option Nat :=
  if statusStorable status && headersStorable headers then
    (ageValue? (directives headers)).bind seconds?
  else none

/-- As `lifetime?`, with nothing for a body that outgrew its limit. -/
def captureLifetime? (status : Status) (headers : Headers) (overflowed : Bool) : Option Nat :=
  if overflowed then none else lifetime? status headers

/-- The point in time up to which a response may be stored, on a clock whose last one is `latest`. -/
def expiry? (latest : Time) (status : Status) (headers : Headers) (overflowed : Bool)
    (now : Time) : Option Time :=
  ((captureLifetime? status headers overflowed).map (now + 1000 * ·)).filter (· ≤ latest)

/-- Whether the body of a response is worth capturing, judged before it is seen. -/
def mayStore (status : Status) (headers : Headers) : Bool := (lifetime? status headers).isSome

end Gateway.Cache
