import Gateway.Config.Url

/-! All settings, their defaults, and what is derived from them. -/
namespace Gateway.Config

structure TlsSettings where
  certPath : String
  keyPath : String
  deriving DecidableEq

/-- The listeners and what is done to every request. Limits and times of 0 are none. -/
structure HttpSettings where
  port : UInt16 := 8080
  httpsPort : UInt16 := 443
  /-- When set, the plain port sends clients to the secure one. -/
  tls : Option TlsSettings := none
  /-- Seconds for a client to send its headers. -/
  readTimeout : Nat := 30
  /-- Seconds to produce a response. -/
  writeTimeout : Nat := 30
  /-- Seconds between signs of life on idle connections. -/
  idleTimeout : Nat := 60
  maxRequestBody : Nat := 0
  gzip : Bool := false
  logRequests : Bool := true
  addRequestStart : Bool := true
  deriving DecidableEq

structure CacheSettings where
  enabled : Bool := true
  /-- Octets in all. -/
  capacity : Nat := 67108864
  /-- Octets of one encoded response. -/
  maxItemSize : Nat := 1048576
  /-- Octets of a body that is captured; 0 stands for `maxItemSize`. -/
  maxBody : Nat := 0
  deriving DecidableEq

structure ProxySettings where
  enabled : Bool := true
  /-- Derived from the settings of the application when empty. -/
  targetUrl : String := ""
  badGatewayPage : String := "public/502.html"
  /-- Whether what a request says of earlier hops is trusted. -/
  forwardHeaders : Bool := false
  h2c : Bool := false
  sendfile : Bool := true
  cache : CacheSettings := {}
  deriving DecidableEq

/-- The application that is started and stopped along with the gateway. -/
structure AppSettings where
  enabled : Bool := false
  command : String := ""
  /-- Arguments after the words of the command. -/
  args : List String := []
  /-- The gateway's own when empty. -/
  workingDirectory : String := ""
  stopSignal : String := "SIGTERM"
  env : List (String × String) := []
  /-- The port that it listens on; 0 when not known. -/
  port : UInt16 := 0
  /-- The socket that it listens on in place of a port. -/
  socket : String := ""
  deriving DecidableEq

structure LogSettings where
  level : String := "info"
  format : String := "pretty"
  metricsEnabled : Bool := false
  metricsAddress : String := "127.0.0.1:9090"
  deriving DecidableEq

structure Settings where
  http : HttpSettings := {}
  proxy : ProxySettings := {}
  app : AppSettings := {}
  log : LogSettings := {}
  deriving DecidableEq

/-- The largest body that is captured. -/
def CacheSettings.bodyLimit (c : CacheSettings) : Nat :=
  if c.maxBody = 0 then c.maxItemSize else c.maxBody

/-- Whether there is a cache: it is wanted, and none of its limits is 0. -/
def CacheSettings.isUsable (c : CacheSettings) : Bool :=
  c.enabled && c.capacity != 0 && c.maxItemSize != 0 && c.bodyLimit != 0

/-- The port that an application is taken to listen on when nothing is said. -/
def defaultAppPort : UInt16 := 3000

namespace Settings

/-- The URL that requests are sent on to: the one that is set, else the application's. -/
def targetUrl (s : Settings) : String :=
  if s.proxy.targetUrl != "" || !s.app.enabled then s.proxy.targetUrl
  else if s.app.socket != "" then "http://localhost"
  else
    let port := if s.app.port = 0 then defaultAppPort else s.app.port
    "http://127.0.0.1:" ++ toString port.toNat

/-- The socket to dial, when the application listens on one. -/
def socket? (s : Settings) : Option String :=
  if s.app.enabled && s.app.socket != "" then some s.app.socket else none

/-- The port in the target URL, for an application whose port is not set. -/
def portOfTarget (s : Settings) : UInt16 :=
  match Url.parse s.proxy.targetUrl with
  | .ok url => url.port.getD defaultAppPort
  | .error _ => defaultAppPort

/-- Fills in the port that the application is told to listen on. -/
def derivePort (s : Settings) : Settings :=
  if !s.app.enabled || s.app.socket != "" || s.app.port != 0 then s
  else { s with app := { s.app with port := s.portOfTarget } }

end Settings

end Gateway.Config
