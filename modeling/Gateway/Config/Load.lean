import Gateway.Config.Decode
import Gateway.Config.Toml
import Gateway.Files
import Gateway.Text.Blank
import Gateway.Text.Quoted

/-! Reading settings from a text or a file, and what settings have to agree on. -/
namespace Gateway.Config

inductive SettingsProblem where
  | invalidTargetUrl (url reason : String)
  | missingTarget
  | emptyCommand
  | zeroCacheLimit (name : String)
  | portConflict (port : UInt16)
  | unknownLogFormat (format : String)
  deriving DecidableEq

def SettingsProblem.message : SettingsProblem → String
  | invalidTargetUrl url reason =>
    "proxy target url " ++ Text.Quoted.quote url ++ " is invalid: " ++ reason
  | missingTarget => "proxy enabled but no target url and no upstream configured"
  | emptyCommand => "upstream enabled but command not configured"
  | zeroCacheLimit name => "cache enabled with zero " ++ name
  | portConflict port => "https port " ++ toString port.toNat ++ " collides with the http port"
  | unknownLogFormat format =>
    "unknown log format " ++ Text.Quoted.quote format ++ " (expected \"pretty\" or \"json\")"

/-- What is wrong with a URL as a target. -/
def targetProblem? (url : String) : Option SettingsProblem :=
  match Url.parse url with
  | .error e => some (.invalidTargetUrl url e.text)
  | .ok parsed =>
    if parsed.scheme != "http" && parsed.scheme != "https" then
      some (.invalidTargetUrl url ("unsupported scheme " ++ parsed.scheme))
    else if parsed.host.isNone then some (.invalidTargetUrl url "missing host")
    else none

def cacheProblems (c : CacheSettings) : List SettingsProblem :=
  if !c.enabled then []
  else (if c.capacity = 0 then [.zeroCacheLimit "capacity_bytes"] else [])
    ++ (if c.maxItemSize = 0 then [.zeroCacheLimit "max_item_size_bytes"] else [])

def proxyProblems (s : Settings) : List SettingsProblem :=
  if !s.proxy.enabled then []
  else (if s.targetUrl = "" then [.missingTarget] else (targetProblem? s.targetUrl).toList)
    ++ cacheProblems s.proxy.cache

/-- Everything that is wrong with the settings. -/
def problems (s : Settings) : List SettingsProblem :=
  proxyProblems s
    ++ (if s.app.enabled && (Text.trim s.app.command.toList).isEmpty then [.emptyCommand] else [])
    ++ (if s.http.tls.isSome && s.http.httpsPort = s.http.port then [.portConflict s.http.httpsPort]
      else [])
    ++ (if s.log.format != "pretty" && s.log.format != "json" then [.unknownLogFormat s.log.format]
      else [])

inductive LoadError where
  | file (e : FileError)
  /-- Not a document, or one that holds no settings. -/
  | malformed
  | invalid (problems : List SettingsProblem)

/-- What is said of a malformed document goes no further than that it is one. -/
def LoadError.message : LoadError → String
  | file e => "IO error: " ++ e.message
  | malformed => "Parse error: "
  | invalid ps => "Validation failed: " ++ ", ".intercalate (ps.map (·.message))

/-- Settings from the text of a document, with the application's port filled in and nothing wrong. -/
def parse (text : String) : Except LoadError Settings :=
  match (Toml.parse? text).bind fun es => settings? true (.table .header es) with
  | none => .error .malformed
  | some s =>
    let s := s.derivePort
    if problems s = [] then .ok s else .error (.invalid (problems s))

def load (files : Files) (path : Bytes) : Except LoadError Settings :=
  match files.read path with
  | .error e => .error (.file e)
  | .ok content => match Text.Utf8.decode? content with
    | none => .error (.file .invalidUtf8)
    | some cs => parse (String.ofList cs)

end Gateway.Config
