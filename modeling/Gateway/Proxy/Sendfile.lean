import Gateway.Proxy.FileService

/-! Responses that name a file to be sent instead of their body. -/
namespace Gateway.Proxy
open Http

/-- The request headers that the application sees: when files are served for it, exactly one
announcement of that, whatever the client sent. -/
def announceSendfile (enabled : Bool) (h : Headers) : Headers :=
  if enabled then h.insert .xSendfileType (.ofLatin1 "X-Sendfile" (by decide))
  else h.erase .xSendfileType

/-- The size of the file at a path. How much room a directory or a program takes depends on the file
system and is not told here. -/
def fileSize? (files : Files) (path : Bytes) : Option Nat :=
  match files.lookup path with
  | .ok (.file content _) => some content.length
  | _ => none

/-- What serves single files: the size of one, when it can be told, and the answer to a request for
it, which is a HEAD or a GET with the given headers. -/
structure FileServer where
  size? : Bytes → Option Nat
  answer : Bytes → Bool → Headers → Response ResponseHead

def fileServer (files : Files) : FileServer := ⟨fileSize? files, serveFile files⟩

/-- The application's headers with the file's size for their length. -/
def withSize (app : Headers) : Option Nat → Headers
  | some n => (app.erase .xSendfile).insert .contentLength (.ofNat n)
  | none => (app.erase .xSendfile).erase .contentLength

/-- The headers of the file's answer in place of the application's ones of the same names. The
application's content type is kept, and the size stands for a missing content length. -/
def mergeHeaders (app : Headers) (size : Option Nat) (file : Headers) : Headers :=
  let sized := withSize app size
  let merged := (file.names.foldl .erase sized).appendDrained none file.drained
  match sized.get? .contentType with
  | some v => merged.insert .contentType v
  | none => merged

/-- The response to pass on in place of the application's. -/
def substitute (enabled : Bool) (server : FileServer) (isHead : Bool) (request : Headers)
    (app : Response ResponseHead) : Response ResponseHead :=
  match enabled, app.head.headers.get? .xSendfile with
  | true, some path =>
    let file := server.answer path.bytes isHead request
    ⟨⟨file.head.status, mergeHeaders app.head.headers (server.size? path.bytes)
      file.head.headers⟩, file.body⟩
  | _, _ => app

def sendfile (enabled : Bool) (files : Files) : Bool → Headers → Response ResponseHead →
    Response ResponseHead :=
  substitute enabled (fileServer files)

end Gateway.Proxy
