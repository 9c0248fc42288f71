import Gateway.Proofs.Cache.Replays
import Gateway.Proofs.Proxy.StatedLength
import Gateway.Proofs.Server.Runs

/-! Requests that ask whether a stored response still holds. The cache answers with the stored head
alone, but a stored head can name a file, and then the file is sent in its place. -/
namespace Gateway.Proxy
open Http

variable {files : Files} {path : Bytes} {isHead : Bool} {request : Headers} {content : Bytes}
  {modified : Nat}

/-- The file is there and has not changed since the time that the request names. -/
def Unchanged (files : Files) (path : Bytes) (request : Headers) : Prop :=
  ∃ content modified, files.lookup path = .ok (.file content modified) ∧
    conditionStatus? request modified = some .notModified

theorem status_serveContent_ne : (serveContent isHead request path content modified).head.status ≠
    .notModified := by
  unfold serveContent
  dsimp only
  split
  · exact nofun
  · split
    · exact nofun
    · exact nofun
    · exact nofun

/-- Only for an unchanged file is the answer that it has not changed. -/
theorem status_serveFile_iff : (serveFile files path isHead request).head.status = .notModified ↔
    Unchanged files path request := by
  unfold serveFile Unchanged
  cases hfile : files.lookup path with
  | error e => cases e <;> simp [Status.notModified, Status.notFound, Status.internalServerError]
  | ok node =>
    cases node with
    | directory => simp [Status.notModified, Status.notFound]
    | program => simp [Status.notModified, Status.notFound]
    | file content modified =>
      dsimp only
      cases hstatus : conditionStatus? request modified with
      | none => simp [hstatus, status_serveContent_ne]
      | some status => simp [hstatus]

theorem body_serveFile_of_unchanged (h : Unchanged files path request) :
    (serveFile files path isHead request).body = .empty := by
  obtain ⟨content, modified, hfile, hstatus⟩ := h
  unfold serveFile
  dsimp only
  rw [hfile]
  dsimp only
  rw [hstatus]

end Gateway.Proxy

namespace Gateway.Server
open Http Proxy Cache

theorem withoutTunnelBody_of_notModified (m : Method) {response : Response ResponseHead}
    (h : response.head.status = .notModified) : withoutTunnelBody m response = response := by
  unfold withoutTunnelBody
  rw [h]
  simp [Status.notModified]

theorem head_withoutTunnelBody (m : Method) (response : Response ResponseHead) :
    (withoutTunnelBody m response).head = response.head := by
  unfold withoutTunnelBody
  split_ifs <;> rfl

def IsBareNotModified (response : Response ResponseHead) : Prop :=
  response.head.status = .notModified ∧ response.body = .empty

theorem isBareNotModified_withoutTunnelBody {m : Method} {response : Response ResponseHead} :
    IsBareNotModified (withoutTunnelBody m response) ↔ IsBareNotModified response := by
  unfold IsBareNotModified
  rw [head_withoutTunnelBody]
  apply and_congr_right
  intro h
  rw [withoutTunnelBody_of_notModified m h]

namespace Relay

/-- A bare answer that nothing has changed is delivered as it is, unless it names a file that is not
in the same case. -/
theorem isBareNotModified_deliver {r : Relay} (hsendfile : r.sendfile = true) (files : Files)
    (request : RequestHead) {app : Response ResponseHead} (happ : IsBareNotModified app) :
    IsBareNotModified (r.deliver files request app) ↔
      ∀ path ∈ app.head.headers.get? .xSendfile, Unchanged files path.bytes request.headers := by
  unfold deliver
  rw [isBareNotModified_withoutTunnelBody, hsendfile]
  unfold Proxy.sendfile substitute
  cases hmarked : app.head.headers.get? .xSendfile with
  | none => simpa using happ
  | some path =>
    show (serveFile files path.bytes (request.method == .head) request.headers).head.status =
      .notModified ∧ (serveFile files path.bytes (request.method == .head) request.headers).body =
      .empty ↔ _
    rw [status_serveFile_iff]
    constructor
    · rintro ⟨hunchanged, -⟩ named hnamed
      obtain rfl := Option.some.inj hnamed
      exact hunchanged
    · intro hunchanged
      have hfile := hunchanged path rfl
      exact ⟨hfile, body_serveFile_of_unchanged hfile⟩

theorem handle_of_hit {r : Relay} {cache : ResponseCache} (hcache : r.cache = some cache)
    {env : Surroundings} (deadline : Option Nat) {i : Inbound} {stored : Stored}
    (hhit : (cache.lookup (.ofRequest (r.announce i).head) env.now).hit = some stored) :
    (r.handle env deadline i).1 =
      .atOnce (r.delivered env.files (r.announce i).head stored) := by
  have hcourse := course_handleCached r cache env deadline (r.announce i)
  rw [handle_of_cache hcache]
  dsimp only
  generalize r.handleCached cache env deadline (r.announce i) = result at hcourse ⊢
  cases hcourse with
  | late hmiss => exact absurd (hhit.symm.trans hmiss) nofun
  | relayed hmiss => exact absurd (hhit.symm.trans hmiss) nofun
  | replayed found hfound =>
    obtain rfl := Option.some.inj (hhit.symm.trans hfound)
    rfl

theorem isBareNotModified_delivered {r : Relay} (hsendfile : r.sendfile = true) (files : Files)
    {request : RequestHead} {stored : Stored}
    (hmatches : stored.etagMatches request.headers = true) :
    IsBareNotModified (r.delivered files request stored) ↔
      ∀ path ∈ stored.headers.get? .xSendfile, Unchanged files path.bytes request.headers := by
  have hbare : IsBareNotModified ⟨(stored.replay request.headers).1,
      .whole (stored.replay request.headers).2⟩ := by
    rw [Stored.replay_of_etagMatches hmatches]
    exact ⟨rfl, rfl⟩
  have hnamed : (stored.replay request.headers).1.headers.get? .xSendfile =
      stored.headers.get? .xSendfile := by
    unfold Headers.get?
    rw [ResponseCache.values_replay, if_neg (by decide)]
  unfold delivered
  rw [isBareNotModified_deliver hsendfile files request hbare, hnamed]

/-- A request that the cache answers because it names the stored entity tag gets a bare 304 exactly
when the stored head names no file, or one that has not changed since the time that the request
names. The stored head is that of an answer that the proxy had for an earlier request. -/
theorem revalidated_iff (proxy : ReverseProxy) (capacity maxItemSize maxBody : Nat)
    (metrics : Metrics) (arrivals : List Arrival) (a : Arrival) :
    let start : Relay := ⟨proxy, true, some ⟨.fresh capacity maxItemSize metrics, [], maxBody⟩⟩
    let head := (start.announce a.inbound).head
    ∃ cache, (start.run arrivals).cache = some cache ∧
      ∀ stored, (cache.lookup (.ofRequest head) a.surroundings.now).hit = some stored →
        stored.etagMatches head.headers = true →
        (∃ b ∈ arrivals, stored.ComesFrom (start.answerTo b).response.head) ∧
        ∃ response, ((start.run arrivals).handle a.surroundings a.deadline a.inbound).1 =
            .atOnce response ∧
          (IsBareNotModified response ↔ ∀ path ∈ stored.headers.get? .xSendfile,
            Unchanged a.surroundings.files path.bytes head.headers) := by
  intro start head
  obtain ⟨cache, hrun, hkept⟩ :=
    run_of_fresh proxy true capacity maxItemSize maxBody metrics arrivals
  refine ⟨cache, congrArg Relay.cache hrun, fun stored hhit hmatches => ⟨?_, ?_⟩⟩
  · obtain ⟨blob, ⟨b, hb, hblob⟩, hdecode⟩ := ResponseCache.exists_blob_of_hit hkept rfl hhit
    exact ⟨b, hb, hblob.comesFrom hdecode⟩
  · rw [hrun]
    exact ⟨_, handle_of_hit rfl a.deadline hhit,
      isBareNotModified_delivered rfl a.surroundings.files hmatches⟩

def loopback : ReverseProxy :=
  ⟨⟨.http, ⟨.ofLatin1 "127.0.0.1:3000", by decide⟩, [], none⟩, .standard, false, none⟩

/-- A request to an application whose answers may be stored and name a file. -/
def fileVisit (head : RequestHead) : Arrival :=
  let files : Files := ⟨[([.ofLatin1 "a.txt"], .file (.ofLatin1 "0123456789") 1700000000)], []⟩
  let reply := Bytes.ofLatin1 ("HTTP/1.1 200 OK\r\nCache-Control: public, max-age=60\r\n" ++
    "ETag: \x22v1\x22\r\nX-Sendfile: a.txt\r\nContent-Length: 0\r\n\r\n")
  ⟨⟨0, files, some fun _ => ⟨reply, 0⟩, .ofLatin1 "id" (by decide), fun _ _ => 0⟩, none,
    ⟨head, .empty, none, none, .http, false⟩⟩

/-- The client names the stored entity tag and a time after the last change of the file. -/
theorem revalidated_of_unchanged_file :
    let start : Relay := ⟨loopback, true, some ⟨.fresh 1000 1000 [], [], 100⟩⟩
    let root : Uri := ⟨none, none, [47], none, by decide, nofun⟩
    let first := fileVisit ⟨.get, root, ∅⟩
    let a := fileVisit ⟨.get, root, .ofFields [
      (.ifNoneMatch, .ofLatin1 "W/\x22v0\x22, \x22v1\x22" (by decide)),
      (.ifModifiedSince, .ofLatin1 "Wed, 15 Nov 2023 00:00:00 GMT" (by decide))]⟩
    ∃ response, ((start.run [first]).handle a.surroundings a.deadline a.inbound).1 =
      .atOnce response ∧ IsBareNotModified response := by
  intro start root first a
  obtain ⟨cache, hcache, hanswer⟩ := revalidated_iff loopback 1000 1000 100 [] [first] a
  have hfound : (((start.run [first]).cache.bind fun c =>
      (c.lookup (.ofRequest (start.announce a.inbound).head) a.surroundings.now).hit).map fun s =>
        (s.etagMatches (start.announce a.inbound).head.headers, s.headers.get? .xSendfile)) =
      some (true, some (.ofLatin1 "a.txt" (by decide))) := by
    decide +kernel
  rw [hcache] at hfound
  obtain ⟨stored, hhit, hfound⟩ := Option.map_eq_some_iff.mp hfound
  obtain ⟨hmatches, hnamed⟩ := Prod.mk.inj hfound
  obtain ⟨-, response, hresponse, hiff⟩ := hanswer stored hhit hmatches
  refine ⟨response, hresponse, hiff.mpr ?_⟩
  rw [hnamed]
  rintro path ⟨⟩
  exact ⟨.ofLatin1 "0123456789", 1700000000, by decide +kernel, by decide +kernel⟩

/-- The cache answers 304 without a body, and the client gets the whole file with status 200. -/
theorem not_revalidated_of_named_file :
    let start : Relay := ⟨loopback, true, some ⟨.fresh 1000 1000 [], [], 100⟩⟩
    let root : Uri := ⟨none, none, [47], none, by decide, nofun⟩
    let first := fileVisit ⟨.get, root, ∅⟩
    let a := fileVisit ⟨.get, root, .ofFields [
      (.ifNoneMatch, .ofLatin1 "\x22v1\x22" (by decide))]⟩
    let head := (start.announce a.inbound).head
    let r := start.run [first]
    ∃ cache stored response, r.cache = some cache ∧
      (cache.lookup (.ofRequest head) a.surroundings.now).hit = some stored ∧
      stored.etagMatches head.headers = true ∧
      (r.handle a.surroundings a.deadline a.inbound).1 = .atOnce response ∧
      response.head.status = .ok ∧ response.body.content? = some (.ofLatin1 "0123456789") := by
  intro start root first a head r
  obtain ⟨cache, hrun, -⟩ := run_of_fresh loopback true 1000 1000 100 [] [first]
  have hcache : r.cache = some cache := congrArg Relay.cache hrun
  have hfound : ((r.cache.bind fun c =>
      (c.lookup (.ofRequest head) a.surroundings.now).hit).map fun s =>
        (s.etagMatches head.headers, (start.delivered a.surroundings.files head s).head.status,
          (start.delivered a.surroundings.files head s).body.content?)) =
      some (true, .ok, some (.ofLatin1 "0123456789")) := by
    decide +kernel
  rw [hcache] at hfound
  obtain ⟨stored, hhit, hfound⟩ := Option.map_eq_some_iff.mp hfound
  obtain ⟨hmatches, hfound⟩ := Prod.mk.inj hfound
  obtain ⟨hstatus, hbody⟩ := Prod.mk.inj hfound
  have hresponse : (r.handle a.surroundings a.deadline a.inbound).1 =
      .atOnce (start.delivered a.surroundings.files head stored) := by
    rw [show r = _ from hrun]
    exact handle_of_hit rfl a.deadline hhit
  exact ⟨cache, stored, _, hcache, hhit, hmatches, hresponse, hstatus, hbody⟩

end Relay

end Gateway.Server
