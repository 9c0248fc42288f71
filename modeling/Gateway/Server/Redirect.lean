import Gateway.Http.Body
import Gateway.Http.Message

/-! Sending clients of the plain listener to the secure one. -/
namespace Gateway.Server
open Http

/-- Where `https` URLs lead that name no port. -/
def defaultHttpsPort : UInt16 := 443

/-- The host that a request is for: the first `Host` unless it is blank or cannot be read, else the
authority of the URI. -/
def requestedHost? (r : RequestHead) : Option Bytes :=
  (((r.headers.text? .host).map Bytes.trim).filter (!·.isEmpty))
    <|> r.uri.authority.map (·.bytes)

/-- The host of an authority; text that is no authority stays as it is. -/
def withoutPort (host : Bytes) : Bytes := ((Authority.ofBytes? host).map (·.host)).getD host

/-- The same resource on the secure listener. The port is spelled out unless it is the default. -/
def secureUrl (r : RequestHead) (port : UInt16) : Bytes :=
  let host := ((requestedHost? r).map withoutPort).getD []
  let authority :=
    if host.isEmpty || port == defaultHttpsPort then host
    else host ++ 58 :: Bytes.ofNat port.toNat
  .ofLatin1 "https://" ++ authority ++ r.uri.pathAndQuery

/-- Every request is sent on to its secure URL, and the connection ends. -/
def redirect (r : RequestHead) (port : UInt16) : Response ResponseHead :=
  let closing : Headers := .ofFields [(.connection, .ofLatin1 "close" (by decide))]
  let headers := match HeaderValue.ofBytes? (secureUrl r port) with
    | some location => closing.insert .location location
    | none => closing
  ⟨⟨.movedPermanently, headers⟩, .empty⟩

end Gateway.Server
