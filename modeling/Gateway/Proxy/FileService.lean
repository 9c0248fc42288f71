import Gateway.Files
import Gateway.Http.Body
import Gateway.Http.Date
import Gateway.Http.Message
import Gateway.Proxy.ByteRange

/-! A file as an HTTP resource: its type, its date, conditional requests and ranges. -/
namespace Gateway.Proxy
open Http

/-- Media types by file extension. -/
def mediaTypes : List (Bytes × Bytes) :=
  [("txt", "text/plain"), ("html", "text/html"), ("htm", "text/html"), ("css", "text/css"),
    ("js", "text/javascript"), ("mjs", "text/javascript"), ("json", "application/json"),
    ("csv", "text/csv"), ("png", "image/png"), ("jpg", "image/jpeg"), ("jpeg", "image/jpeg"),
    ("gif", "image/gif"), ("svg", "image/svg+xml"), ("webp", "image/webp"),
    ("pdf", "application/pdf"), ("xml", "text/xml"), ("gz", "application/gzip"),
    ("zip", "application/zip"), ("wasm", "application/wasm"), ("mp4", "video/mp4"),
    ("md", "text/markdown")].map fun (e, t) => (Bytes.ofLatin1 e, Bytes.ofLatin1 t)

/-- What follows the last dot of the file's name, unless the name begins with that dot. -/
def extension? (path : Bytes) : Option Bytes :=
  let name := ((Files.components path).getLast?).getD []
  match Bytes.splitFirst? 46 name.reverse with
  | some (ext, _ :: _) => some ext.reverse
  | _ => none

def mediaType (path : Bytes) : Bytes :=
  (((extension? path).bind fun e => mediaTypes.lookup (Bytes.lower e))).getD
    (.ofLatin1 "application/octet-stream")

/-- Adds a header whose value is known to be well formed; one that is not is left out. -/
def withField (h : Headers) (n : HeaderName) (value : Bytes) : Headers :=
  match HeaderValue.ofBytes? value with
  | some v => h.append n v
  | none => h

/-- The date in a request header; one that cannot be read counts as absent. -/
def conditionDate? (h : Headers) (n : HeaderName) : Option Date :=
  (h.get? n).bind fun v => Date.parse? v.bytes

/-- The status that answers a conditional request without the file. -/
def conditionStatus? (h : Headers) (modified : Nat) : Option Status :=
  if (conditionDate? h .ifUnmodifiedSince).any (·.seconds < modified) then
    some .preconditionFailed
  else if (conditionDate? h .ifModifiedSince).any (modified ≤ ·.seconds) then some .notModified
  else none

def contentRange (range : Option ByteRange) (size : Nat) : Bytes :=
  .ofLatin1 "bytes " ++ (match range with
    | some r => Bytes.ofNat r.first ++ 45 :: Bytes.ofNat r.last
    | none => [42]) ++ 47 :: Bytes.ofNat size

def multipartRefusal : Bytes := .ofLatin1 "Cannot serve multipart range requests"

/-- A body that is read from a file piece by piece. -/
def fileBody (isHead : Bool) (content : Bytes) : Body :=
  if isHead then .empty
  else .ofPolls (if content.isEmpty then [] else [.frame (.data content)])

/-- The answer with the file or a part of it. -/
def serveContent (isHead : Bool) (request : Headers) (path content : Bytes) (modified : Nat) :
    Response ResponseHead :=
  let size := content.length
  let common := withField (withField (withField ∅ .contentType (mediaType path)) .acceptRanges
    (.ofLatin1 "bytes")) .lastModified (Date.ofSeconds modified).text
  let refused (body : Body) : Response ResponseHead :=
    ⟨⟨.rangeNotSatisfiable, withField common .contentRange (contentRange none size)⟩, body⟩
  match request.text? .range with
  | none => ⟨⟨.ok, common.append .contentLength (.ofNat size)⟩, fileBody isHead content⟩
  | some value => match ByteRange.select? value size with
    | none => refused .empty
    | some [r] =>
      let part := (content.drop r.first).take (r.last - r.first + 1)
      let ranged := withField common .contentRange (contentRange (some r) size)
      let length := if size = 0 then 0 else r.last - r.first + 1
      ⟨⟨.partialContent, ranged.append .contentLength (.ofNat length)⟩, fileBody isHead part⟩
    | some _ => refused (.whole multipartRefusal)

/-- Answers a request for the file at a path, whatever the URI of the request. -/
def serveFile (files : Files) (path : Bytes) (isHead : Bool) (request : Headers) :
    Response ResponseHead :=
  let bare (status : Status) : Response ResponseHead := ⟨⟨status, ∅⟩, .empty⟩
  match files.lookup path with
  | .error .nameTooLong => bare .internalServerError
  | .error _ => bare .notFound
  | .ok .directory | .ok .program => bare .notFound
  | .ok (.file content modified) =>
    match conditionStatus? request modified with
    | some status => bare status
    | none => serveContent isHead request path content modified

end Gateway.Proxy
