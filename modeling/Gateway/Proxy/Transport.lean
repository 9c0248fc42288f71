import Gateway.Http.Uri
import Gateway.Text.Blank
import Gateway.Text.Utf8

/-! How the target is reached, which is settled once for all requests. -/
namespace Gateway.Proxy
open Http

/-- The components of a path that count: no empty ones and no dots. -/
def pathComponents (path : Bytes) : List Bytes :=
  (Bytes.splitOn 47 path).filter fun c => !c.isEmpty && c != [46]

/-- Exactly two slashes in front are not the same as one. -/
def rootSlashes (path : Bytes) : Bytes :=
  match path with
  | 47 :: 47 :: 47 :: _ => [47]
  | 47 :: 47 :: _ => [47, 47]
  | _ => [47]

/-- An absolute path in plain form, relative ones starting at the root; `..` stays. -/
def absolutePath (path : Bytes) : Bytes :=
  let components := pathComponents path
  let body := [47].intercalate components
  let trailing : Bytes :=
    if components.isEmpty || path.getLast? != some 47 then [] else [47]
  rootSlashes path ++ body ++ trailing

/-- What follows `unix://`. -/
def afterUnixScheme? (path : Bytes) : Option Bytes :=
  let scheme : Bytes := .ofLatin1 "unix://"
  if scheme.isPrefixOf path then some (path.drop scheme.length) else none

/-- A socket path as written in a setting: a path, or one after `unix://`; blank means none. -/
def socketPath? (setting : String) : Option Bytes :=
  let path := Text.Utf8.encodeChars (Text.trim setting.toList)
  if path.isEmpty then none
  else match afterUnixScheme? path with
    | some rest => some (if rest.head? == some 47 then rest else 47 :: rest)
    | none => some (absolutePath path)

inductive Transport where
  | unix (path : Bytes)
  /-- HTTP/2 without TLS and without negotiation. -/
  | h2c
  /-- HTTP/1.1, or what TLS negotiates. -/
  | standard
  deriving DecidableEq

namespace Transport

/-- A socket comes first, then h2c for plain targets. -/
def choose (scheme : Bytes) (socket : Option Bytes) (h2cEnabled : Bool) : Transport :=
  match socket with
  | some path => unix path
  | none => if h2cEnabled && scheme == Scheme.http.text then h2c else standard

def kind : Transport → String
  | unix _ => "unix"
  | h2c => "h2c"
  | standard => "standard"

end Transport

end Gateway.Proxy
