import Gateway.Config.Document
import Gateway.Config.Settings

/-! Settings from a document. What is missing has its default, and what is unknown is skipped. -/
namespace Gateway.Config

/-- The members of a section. A list stands for a section too, with the members in their order;
surplus items are dropped or not allowed. -/
def members? (dropsSurplus : Bool) (names : List String) : Value → Option Entries
  | .table _ es => some es
  | .list items =>
    if !dropsSurplus && names.length < items.length then none else some (names.zip items)
  | .tables items =>
    some (names.zip (items.map (Value.table .header)))
  | _ => none

/-- A member read in its way, or its default. -/
def member (es : Entries) (name : String) (read : Value → Option α) (fallback : α) : Option α :=
  match es.lookup name with
  | some v => read v
  | none => some fallback

def bool? : Value → Option Bool
  | .bool b => some b
  | _ => none

def string? : Value → Option String
  | .string s => some s
  | _ => none

/-- A whole number below a bound. -/
def number? (bound : Nat) : Value → Option Nat
  | .int (.ofNat n) => if n < bound then some n else none
  | _ => none

/-- A number of 64 bits. -/
def size? : Value → Option Nat := number? UInt64.size

def port? (v : Value) : Option UInt16 := (number? 65536 v).map (·.toUInt16)

def strings? : Value → Option (List String)
  | .list items => items.mapM string?
  | _ => none

def variables? : Value → Option (List (String × String))
  | .table _ es => es.mapM fun (name, v) => (string? v).map (name, ·)
  | _ => none

/-- Both paths have to be there. -/
def tls? (dropsSurplus : Bool) : Value → Option (Option TlsSettings)
  | .null => some none
  | v => do
    let es ← members? dropsSurplus ["cert_path", "key_path"] v
    some (some ⟨← (es.lookup "cert_path").bind string?, ← (es.lookup "key_path").bind string?⟩)

def http? (dropsSurplus : Bool) (v : Value) : Option HttpSettings := do
  let es ← members? dropsSurplus
    ["port", "https_port", "tls", "read_timeout_secs", "write_timeout_secs", "idle_timeout_secs",
      "max_request_body_bytes", "gzip_enabled", "log_requests", "add_request_start_header"] v
  let d : HttpSettings := {}
  some
    { port := ← member es "port" port? d.port
      httpsPort := ← member es "https_port" port? d.httpsPort
      tls := ← member es "tls" (tls? dropsSurplus) d.tls
      readTimeout := ← member es "read_timeout_secs" size? d.readTimeout
      writeTimeout := ← member es "write_timeout_secs" size? d.writeTimeout
      idleTimeout := ← member es "idle_timeout_secs" size? d.idleTimeout
      maxRequestBody := ← member es "max_request_body_bytes" size? d.maxRequestBody
      gzip := ← member es "gzip_enabled" bool? d.gzip
      logRequests := ← member es "log_requests" bool? d.logRequests
      addRequestStart := ← member es "add_request_start_header" bool? d.addRequestStart }

def cache? (dropsSurplus : Bool) (v : Value) : Option CacheSettings := do
  let es ← members? dropsSurplus
    ["enabled", "capacity_bytes", "max_item_size_bytes", "max_response_body_bytes"] v
  let d : CacheSettings := {}
  some
    { enabled := ← member es "enabled" bool? d.enabled
      capacity := ← member es "capacity_bytes" size? d.capacity
      maxItemSize := ← member es "max_item_size_bytes" size? d.maxItemSize
      maxBody := ← member es "max_response_body_bytes" size? d.maxBody }

def proxy? (dropsSurplus : Bool) (v : Value) : Option ProxySettings := do
  let es ← members? dropsSurplus
    ["enabled", "target_url", "bad_gateway_page", "forward_headers", "h2c_enabled",
      "x_sendfile_enabled", "cache"] v
  let d : ProxySettings := {}
  some
    { enabled := ← member es "enabled" bool? d.enabled
      targetUrl := ← member es "target_url" string? d.targetUrl
      badGatewayPage := ← member es "bad_gateway_page" string? d.badGatewayPage
      forwardHeaders := ← member es "forward_headers" bool? d.forwardHeaders
      h2c := ← member es "h2c_enabled" bool? d.h2c
      sendfile := ← member es "x_sendfile_enabled" bool? d.sendfile
      cache := ← member es "cache" (cache? dropsSurplus) d.cache }

def app? (dropsSurplus : Bool) (v : Value) : Option AppSettings := do
  let es ← members? dropsSurplus
    ["enabled", "command", "args", "working_directory", "stop_signal", "env", "target_port",
      "target_bind_socket"] v
  let d : AppSettings := {}
  some
    { enabled := ← member es "enabled" bool? d.enabled
      command := ← member es "command" string? d.command
      args := ← member es "args" strings? d.args
      workingDirectory := ← member es "working_directory" string? d.workingDirectory
      stopSignal := ← member es "stop_signal" string? d.stopSignal
      env := ← member es "env" variables? d.env
      port := ← member es "target_port" port? d.port
      socket := ← member es "target_bind_socket" string? d.socket }

def log? (dropsSurplus : Bool) (v : Value) : Option LogSettings := do
  let es ← members? dropsSurplus
    ["log_level", "log_format", "metrics_enabled", "metrics_address"] v
  let d : LogSettings := {}
  some
    { level := ← member es "log_level" string? d.level
      format := ← member es "log_format" string? d.format
      metricsEnabled := ← member es "metrics_enabled" bool? d.metricsEnabled
      metricsAddress := ← member es "metrics_address" string? d.metricsAddress }

/-- All settings from the root of a document. -/
def settings? (dropsSurplus : Bool) (v : Value) : Option Settings := do
  let es ← members? dropsSurplus ["http", "proxy", "upstream", "observability"] v
  let d : Settings := {}
  some
    { http := ← member es "http" (http? dropsSurplus) d.http
      proxy := ← member es "proxy" (proxy? dropsSurplus) d.proxy
      app := ← member es "upstream" (app? dropsSurplus) d.app
      log := ← member es "observability" (log? dropsSurplus) d.log }

end Gateway.Config
