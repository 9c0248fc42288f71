import Gateway.Http.Uri
import Gateway.Text.Quoted

/-! The server that requests are sent on to, and how a request's URI is pointed at it. -/
namespace Gateway.Proxy
open Http

inductive TargetProblem where
  | notAUri
  | missingScheme
  | unsupportedScheme
  | missingHost
  deriving DecidableEq

def TargetProblem.text : TargetProblem → String
  | notAUri => "not a valid URI"
  | missingScheme => "missing scheme"
  | unsupportedScheme => "scheme must be http or https"
  | missingHost => "missing host"

/-- A target URL that cannot be used, with the first reason why. -/
structure TargetError where
  url : String
  problem : TargetProblem

def TargetError.message (e : TargetError) : String :=
  "invalid proxy target url " ++ Text.Quoted.quote e.url ++ ": " ++ e.problem.text

/-- Scheme and authority of every outbound request, and what its path and query begin with. -/
structure Target where
  scheme : Scheme
  authority : Authority
  basePath : Bytes
  baseQuery : Option Bytes

namespace Target

/-- The problem that is met first. -/
def check (url : String) : Except TargetProblem Target :=
  match Uri.parse? (Text.Utf8.encode url) with
  | none => .error .notAUri
  | some uri => match uri.scheme with
    | none => .error .missingScheme
    | some (.other _) => .error .unsupportedScheme
    | some scheme => match uri.authority with
      | none => .error .missingHost
      | some authority =>
        .ok ⟨scheme, authority, Bytes.dropEndWhile (· == 47) uri.path,
          uri.query.filter (!·.isEmpty)⟩

def parse (url : String) : Except TargetError Target := (check url).mapError (⟨url, ·⟩)

/-- The path after the base path, with a slash between them unless one is there. -/
def outboundPath (t : Target) (path : Bytes) : Bytes :=
  if path.head? == some 47 then t.basePath ++ path else t.basePath ++ 47 :: path

/-- The non-empty ones of both queries. -/
def outboundQuery (t : Target) (query : Option Bytes) : Option Bytes :=
  match t.baseQuery, query.filter (!·.isEmpty) with
  | some base, some q => some (base ++ 38 :: q)
  | some base, none => some base
  | none, q => q

def querySuffix : Option Bytes → Bytes
  | some q => 63 :: q
  | none => []

/-- The port that connections to the target go to. -/
def dialPort (t : Target) : UInt16 :=
  t.authority.port?.getD (if t.scheme = .https then 443 else 80)

/-- Fails only for a path and query that are too long together. -/
def locate? (t : Target) (inbound : Uri) : Option Uri :=
  let path := t.outboundPath inbound.path
  let query := t.outboundQuery inbound.query
  if Uri.maxLength < (path ++ querySuffix query).length then none
  else Uri.ofParts? (some t.scheme) (some t.authority) path query

end Target

/-- What a request for which `Target.locate?` fails is reported with. -/
def tooLongMessage : String := "invalid rewritten uri: uri too long"

end Gateway.Proxy
