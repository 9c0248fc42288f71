import Gateway.Proofs.Proxy.StatedLength

/-! An answer with a file in place of the application's response: what the application sees, and
from which of both the answer has the values of a name. -/
namespace Gateway.Proxy
open Http

/-- The names that an answer for a file can have. -/
def fileNames : List HeaderName :=
  [.contentType, .acceptRanges, .lastModified, .contentRange, .contentLength]

theorem values_withField_of_not_mem {h : Headers} {n m : HeaderName} (value : Bytes)
    (hm : m ∉ fileNames) (hn : n ∈ fileNames) (hnone : h.values m = []) :
    (withField h n value).values m = [] := by
  rw [values_withField_of_ne value (ne_of_mem_of_not_mem hn hm).symm]
  exact hnone

theorem values_serveContent_of_not_mem (isHead : Bool) (request : Headers) (path content : Bytes)
    (modified : Nat) {n : HeaderName} (hn : n ∉ fileNames) :
    (serveContent isHead request path content modified).head.headers.values n = [] := by
  unfold serveContent
  dsimp only
  generalize hcommon : withField (withField (withField ∅ .contentType (mediaType path))
    .acceptRanges (.ofLatin1 "bytes")) .lastModified _ = common
  have hnothing : common.values n = [] := by
    rw [← hcommon]
    apply values_withField_of_not_mem _ hn (by decide)
    apply values_withField_of_not_mem _ hn (by decide)
    exact values_withField_of_not_mem _ hn (by decide) (Headers.values_empty n)
  have hranged (range : Bytes) : (withField common .contentRange range).values n = [] :=
    values_withField_of_not_mem range hn (by decide) hnothing
  have hlength : n ≠ .contentLength := by
    rintro rfl
    exact hn (by decide)
  split
  · show (common.append .contentLength _).values n = []
    rw [Headers.values_append, if_neg hlength, hnothing]
  · split
    · exact hranged _
    · show ((withField common .contentRange _).append .contentLength _).values n = []
      rw [Headers.values_append, if_neg hlength, hranged]
    · exact hranged _

theorem values_serveFile_of_not_mem (files : Files) (path : Bytes) (isHead : Bool)
    (request : Headers) {n : HeaderName} (hn : n ∉ fileNames) :
    (serveFile files path isHead request).head.headers.values n = [] := by
  unfold serveFile
  dsimp only
  split
  · rfl
  · rfl
  · rfl
  · rfl
  · split
    · rfl
    · exact values_serveContent_of_not_mem isHead request path _ _ hn

/-- What the application sees of the request. -/
theorem values_announceSendfile (enabled : Bool) (h : Headers) (n : HeaderName) :
    (announceSendfile enabled h).values n =
      if n = .xSendfileType then
        if enabled = true then [.ofLatin1 "X-Sendfile" (by decide)] else []
      else h.values n := by
  unfold announceSendfile
  cases enabled with
  | false => simp
  | true => simp

/-- The answer with the file at a path in place of the application's response. -/
structure HasFile (server : FileServer) (isHead : Bool) (seen : Headers) (path : HeaderValue)
    (app answer : Response ResponseHead) : Prop where
  status : answer.head.status = (server.answer path.bytes isHead seen).head.status
  body : answer.body = (server.answer path.bytes isHead seen).body
  unmarked : answer.head.headers.values .xSendfile = []
  contentType : answer.head.headers.values .contentType =
    match app.head.headers.values .contentType with
    | first :: _ => [first]
    | [] => (server.answer path.bytes isHead seen).head.headers.values .contentType
  contentLength : answer.head.headers.values .contentLength =
    if (server.answer path.bytes isHead seen).head.headers.contains .contentLength then
      (server.answer path.bytes isHead seen).head.headers.values .contentLength
    else ((server.size? path.bytes).map .ofNat).toList
  others : ∀ n, n ≠ .xSendfile → n ≠ .contentType → n ≠ .contentLength →
    answer.head.headers.values n =
      if (server.answer path.bytes isHead seen).head.headers.contains n then
        (server.answer path.bytes isHead seen).head.headers.values n
      else app.head.headers.values n

/-- What becomes of the application's response. It goes on as it is, unless files are sent for the
application and it names one. -/
inductive Answered (server : FileServer) (enabled isHead : Bool) (seen : Headers)
    (app : Response ResponseHead) : Response ResponseHead → Prop
  | passed (hunnamed : enabled = false ∨ app.head.headers.values .xSendfile = []) :
      Answered server enabled isHead seen app app
  | replaced {answer : Response ResponseHead} (henabled : enabled = true) (path : HeaderValue)
      (rest : List HeaderValue) (hnamed : app.head.headers.values .xSendfile = path :: rest)
      (hfile : HasFile server isHead seen path app answer) :
      Answered server enabled isHead seen app answer

theorem values_contentType_mergeHeaders (app : Headers) (size : Option Nat) (file : Headers) :
    (mergeHeaders app size file).values .contentType =
      match app.values .contentType with
      | first :: _ => [first]
      | [] => file.values .contentType := by
  rw [mergeHeaders_eq]
  unfold Headers.get?
  cases happ : app.values .contentType with
  | cons first rest =>
    show ((underFile app size file).insert .contentType first).values .contentType = [first]
    rw [Headers.values_insert, if_pos rfl]
  | nil =>
    show (underFile app size file).values .contentType = file.values .contentType
    have hsized : (withSize app size).values .contentType = [] := by
      rw [values_withSize, if_neg (by decide), if_neg (by decide), happ]
    rw [values_underFile, hsized]
    split_ifs with hfile
    · rfl
    · rw [Headers.contains_iff, not_not] at hfile
      exact hfile.symm

theorem hasFile_merged (server : FileServer) (isHead : Bool) (seen : Headers) (path : HeaderValue)
    (app : Response ResponseHead)
    (hsilent : (server.answer path.bytes isHead seen).head.headers.values .xSendfile = []) :
    let file := server.answer path.bytes isHead seen
    HasFile server isHead seen path app
      ⟨⟨file.head.status, mergeHeaders app.head.headers (server.size? path.bytes)
        file.head.headers⟩, file.body⟩ := by
  constructor
  · rfl
  · rfl
  · show (mergeHeaders _ _ _).values .xSendfile = []
    have hsized : (withSize app.head.headers (server.size? path.bytes)).values .xSendfile = [] := by
      rw [values_withSize, if_neg (by decide), if_pos rfl]
    rw [values_mergeHeaders _ _ _ (by decide), hsilent, hsized, ite_self]
  · exact values_contentType_mergeHeaders _ _ _
  · show (mergeHeaders _ _ _).values .contentLength = _
    rw [values_mergeHeaders _ _ _ (by decide), values_withSize, if_pos rfl]
  · intro n hmark htype hlength
    show (mergeHeaders _ _ _).values n = _
    rw [values_mergeHeaders _ _ _ htype, values_withSize, if_neg hlength, if_neg hmark]

/-- An application is told that files are sent for it exactly when they are, whatever its client
says. With a file server whose answers name no file to be sent, its response passes or has the file
in its place, with none of its own body. -/
theorem answered_substitute (server : FileServer)
    (hsilent : ∀ path isHead seen,
      (server.answer path isHead seen).head.headers.values .xSendfile = [])
    (enabled isHead : Bool) (request : Headers) (app : Response ResponseHead) :
    let seen := announceSendfile enabled request
    (∀ n, seen.values n =
      if n = .xSendfileType then
        if enabled = true then [.ofLatin1 "X-Sendfile" (by decide)] else []
      else request.values n) ∧
    Answered server enabled isHead seen app (substitute enabled server isHead seen app) := by
  intro seen
  refine ⟨values_announceSendfile enabled request, ?_⟩
  cases enabled with
  | false => exact .passed (.inl rfl)
  | true =>
    cases hnamed : app.head.headers.values .xSendfile with
    | nil =>
      have hsame : substitute true server isHead seen app = app := by
        unfold substitute Headers.get?
        rw [hnamed]
        rfl
      rw [hsame]
      exact .passed (.inr hnamed)
    | cons path rest =>
      have hmerged : substitute true server isHead seen app =
          ⟨⟨(server.answer path.bytes isHead seen).head.status,
            mergeHeaders app.head.headers (server.size? path.bytes)
              (server.answer path.bytes isHead seen).head.headers⟩,
            (server.answer path.bytes isHead seen).body⟩ := by
        unfold substitute Headers.get?
        rw [hnamed]
        rfl
      rw [hmerged]
      exact .replaced rfl path rest hnamed
        (hasFile_merged server isHead seen path app (hsilent path.bytes isHead seen))

/-- A part of a file in place of a response that has other values of the same names, some of them
twice. -/
theorem answered_with_one_range :
    let files : Files :=
      ⟨[([.ofLatin1 "a.txt"], .file (.ofLatin1 "0123456789") 1700000000)], []⟩
    let request := Headers.ofFields [(.xSendfileType, .ofLatin1 "X-Accel-Redirect" (by decide)),
      (.range, .ofLatin1 "bytes=2-5" (by decide))]
    let marked := Headers.ofFields [(.contentType, .ofLatin1 "text/x" (by decide)),
      (.contentType, .ofLatin1 "text/y" (by decide)), (.xSendfile, .ofLatin1 "a.txt" (by decide)),
      (.xSendfile, .ofLatin1 "b.txt" (by decide)), (.contentLength, .ofLatin1 "8" (by decide)),
      (.cacheControl, .ofLatin1 "private" (by decide)),
      (.cacheControl, .ofLatin1 "no-store" (by decide))]
    let app : Response ResponseHead := ⟨⟨.ok, marked⟩, .whole (.ofLatin1 "app body")⟩
    let seen := announceSendfile true request
    let answer := substitute true (fileServer files) false seen app
    seen.values .xSendfileType = [.ofLatin1 "X-Sendfile" (by decide)] ∧
      answer.body.content? = some (.ofLatin1 "2345") ∧
      answer.head.headers.values .contentType = [.ofLatin1 "text/x" (by decide)] ∧
      answer.head.headers.values .contentLength = [.ofNat 4] ∧
      answer.head.headers.values .cacheControl = marked.values .cacheControl ∧
      answer.head.headers.values .xSendfile = [] := by
  intro files request marked app seen answer
  have hsilent (path : Bytes) (isHead : Bool) (seen : Headers) :
      ((fileServer files).answer path isHead seen).head.headers.values .xSendfile = [] :=
    values_serveFile_of_not_mem files path isHead seen (by decide)
  obtain ⟨hseen, hanswered⟩ := answered_substitute (fileServer files) hsilent true false request app
  have hnamed : app.head.headers.values .xSendfile =
      [.ofLatin1 "a.txt" (by decide), .ofLatin1 "b.txt" (by decide)] := by
    decide +kernel
  change Answered _ _ _ seen _ answer at hanswered
  generalize answer = answer at hanswered ⊢
  cases hanswered with
  | passed hunnamed =>
    rw [hnamed] at hunnamed
    exact absurd hunnamed (by simp)
  | replaced _ path rest hfirst hfile =>
    obtain ⟨rfl, -⟩ := List.cons.inj (hnamed.symm.trans hfirst)
    refine ⟨hseen .xSendfileType, ?_, ?_, ?_, ?_, hfile.unmarked⟩
    · rw [hfile.body]
      decide +kernel
    · rw [hfile.contentType]
      decide +kernel
    · rw [hfile.contentLength]
      decide +kernel
    · rw [hfile.others .cacheControl (by decide) (by decide) (by decide)]
      decide +kernel

end Gateway.Proxy
