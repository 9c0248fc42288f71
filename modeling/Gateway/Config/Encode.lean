import Gateway.Config.Document
import Gateway.Config.Settings

/-! Settings as a document that names every one of them. -/
namespace Gateway.Config

def numberValue (n : Nat) : Value := .int n

def group (entries : Entries) : Value := .table .header entries

def tlsValue : Option TlsSettings → Value
  | some tls => group [("cert_path", .string tls.certPath), ("key_path", .string tls.keyPath)]
  | none => .null

def httpValue (h : HttpSettings) : Value :=
  group
    [("port", numberValue h.port.toNat), ("https_port", numberValue h.httpsPort.toNat),
      ("tls", tlsValue h.tls), ("read_timeout_secs", numberValue h.readTimeout),
      ("write_timeout_secs", numberValue h.writeTimeout),
      ("idle_timeout_secs", numberValue h.idleTimeout),
      ("max_request_body_bytes", numberValue h.maxRequestBody), ("gzip_enabled", .bool h.gzip),
      ("log_requests", .bool h.logRequests), ("add_request_start_header", .bool h.addRequestStart)]

def cacheValue (c : CacheSettings) : Value :=
  group
    [("enabled", .bool c.enabled), ("capacity_bytes", numberValue c.capacity),
      ("max_item_size_bytes", numberValue c.maxItemSize),
      ("max_response_body_bytes", numberValue c.maxBody)]

def proxyValue (p : ProxySettings) : Value :=
  group
    [("enabled", .bool p.enabled), ("target_url", .string p.targetUrl),
      ("bad_gateway_page", .string p.badGatewayPage), ("forward_headers", .bool p.forwardHeaders),
      ("h2c_enabled", .bool p.h2c), ("x_sendfile_enabled", .bool p.sendfile),
      ("cache", cacheValue p.cache)]

def appValue (a : AppSettings) : Value :=
  group
    [("enabled", .bool a.enabled), ("command", .string a.command),
      ("args", .list (a.args.map .string)), ("working_directory", .string a.workingDirectory),
      ("stop_signal", .string a.stopSignal),
      ("env", group (a.env.map fun (name, value) => (name, .string value))),
      ("target_port", numberValue a.port.toNat), ("target_bind_socket", .string a.socket)]

def logValue (l : LogSettings) : Value :=
  group
    [("log_level", .string l.level), ("log_format", .string l.format),
      ("metrics_enabled", .bool l.metricsEnabled), ("metrics_address", .string l.metricsAddress)]

def Settings.document (s : Settings) : Value :=
  group
    [("http", httpValue s.http), ("proxy", proxyValue s.proxy), ("upstream", appValue s.app),
      ("observability", logValue s.log)]

end Gateway.Config
