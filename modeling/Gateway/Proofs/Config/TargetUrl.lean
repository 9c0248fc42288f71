import Gateway.Proofs.Config.TargetPort
import Gateway.Proofs.Http.AbsoluteUri
import Gateway.Server.Stack

/-! Accepted settings and the server that is made of them. A target URL is checked as people write
URLs and then read as a URI, which forgives nothing, so not every URL that is accepted is of use. -/
namespace Gateway

namespace Proxy.Target
open Http

/-- The URLs that are targets: those that spell out a URI of a scheme that the proxy speaks. -/
def Spelled (url : String) : Prop :=
  ∃ p : Uri.Spelling, p.Valid ∧ (Scheme.ofBytes p.name = .http ∨ Scheme.ofBytes p.name = .https) ∧
    Text.Utf8.encode url = p.text

theorem exists_parse_iff {url : String} : (∃ t, parse url = .ok t) ↔ Spelled url := by
  constructor
  · rintro ⟨t, ht⟩
    obtain ⟨u, hu, hdenotes⟩ := parse_eq_ok_iff.mp ht
    obtain ⟨p, hp, htext, hscheme, -⟩ := Uri.exists_spelling hu hdenotes.scheme
    have hname := Option.some.inj (hdenotes.scheme.symm.trans hscheme)
    exact ⟨p, hp, hname ▸ hdenotes.known, htext⟩
  · rintro ⟨p, hp, hknown, htext⟩
    have hutf8 : (Text.Utf8.decode? p.text).isSome = true :=
      Text.Utf8.isSome_decode?_iff.mpr ⟨url.toList, htext⟩
    obtain ⟨u, hu, hparts⟩ := Uri.Spelling.exists_parse? hp hutf8
    let t : Target := ⟨Scheme.ofBytes p.name, p.authority, u.path.rdropWhile (· == 47),
      u.query.filter (!·.isEmpty)⟩
    refine ⟨t, parse_eq_ok_iff.mpr ⟨u, htext ▸ hu, ?_⟩⟩
    exact ⟨hparts.scheme_eq, hknown, hparts.authority_eq, rfl, rfl⟩

/-- Both readings see the same scheme, so a URL that one of them has accepted can only fail to be a
URI or to have a scheme at all. -/
theorem problem_of_parse {url : String} {parsed : Config.Url} {problem : TargetProblem}
    (hparsed : Config.Url.parse url = .ok parsed)
    (hscheme : parsed.scheme = "http" ∨ parsed.scheme = "https")
    (h : check url = .error problem) : problem = .notAUri ∨ problem = .missingScheme := by
  unfold check at h
  split at h
  · exact .inl (Except.error.inj h).symm
  · rename_i u hu
    split at h
    · exact .inr (Except.error.inj h).symm
    · rename_i other hother
      obtain ⟨name, a, rest, hsplits, hname, -⟩ := Uri.splits_of_parse? hu hother
      obtain ⟨tail, htext, htail⟩ := Config.Url.text_of_splits hsplits
      have hlower := Config.Url.scheme_of_parse htext hsplits.isName htail hparsed
      rw [hlower] at hscheme
      exact absurd hname (Config.Url.ofBytes_ne_other hscheme other)
    · rename_i scheme hknown hscheme
      obtain ⟨name, a, rest, -, -, hread⟩ := Uri.splits_of_parse? hu hscheme
      rw [(Uri.readPath?_eq hread).2] at h
      cases h

section Loopback

theorem isAuthority_loopback (n : Nat) :
    isAuthority (.ofLatin1 "127.0.0.1:" ++ Bytes.ofNat n) = true := by
  have hstart : AuthorityScan.start.run? (.ofLatin1 "127.0.0.1:") = some ⟨1, false, false, false⟩ :=
    rfl
  have hdigits : AuthorityScan.run? ⟨1, false, false, false⟩ (Bytes.ofNat n) =
      some ⟨1, false, false, false⟩ :=
    AuthorityScan.run?_digits fun b hb => Bytes.isDigit_of_mem_ofNat hb
  have hrun : AuthorityScan.start.run? (.ofLatin1 "127.0.0.1:" ++ Bytes.ofNat n) =
      some ⟨1, false, false, false⟩ := by
    rw [AuthorityScan.run?_append, hstart]
    exact hdigits
  have hlast : (Bytes.ofLatin1 "127.0.0.1:" ++ Bytes.ofNat n).getLast? ≠ some 64 := by
    intro hlast
    rcases List.mem_append.mp (List.mem_of_getLast? hlast) with hmem | hmem
    · revert hmem
      decide
    · cases Bytes.isDigit_of_mem_ofNat hmem
  unfold isAuthority
  rw [hrun]
  dsimp only
  rw [bne_iff_ne.mpr hlast]
  rfl

/-- The URL of an application that listens on a port. -/
theorem spelled_loopback {n : Nat} (hn : n < 65536) :
    Spelled ("http://127.0.0.1:" ++ toString n) := by
  let name := Bytes.ofLatin1 "http"
  let p : Uri.Spelling := ⟨name, ⟨_, isAuthority_loopback n⟩, [], none, none⟩
  have hname : Scheme.ofBytes name = .http ∧ name.all Scheme.isByte = true ∧
      name.length ≤ Scheme.maxLength := by
    decide +kernel
  have htext : p.text = .ofLatin1 "http://127.0.0.1:" ++ Bytes.ofNat n := by
    simp [p, name, Uri.Spelling.text, Uri.Spelling.tail, Uri.marked, Bytes.ofLatin1]
  have hdigits : (Bytes.ofNat n).length ≤ 5 := by
    rw [Bytes.ofNat, List.length_map, Nat.length_toDigits_le_iff (by decide) (by decide)]
    omega
  refine ⟨p, ?_, .inl hname.1, ?_⟩
  · constructor
    case name => exact hname.2.1
    case short => exact hname.2.2
    case path => rfl
    case slash =>
      intro b hb
      cases hb
    case query =>
      intro q hq
      cases hq
    case fits =>
      have hlength : (Bytes.ofLatin1 "http://127.0.0.1:").length = 17 := by decide
      have hmax : Uri.maxLength = 65534 := rfl
      rw [htext, List.length_append, hlength, hmax]
      omega
  · rw [htext, Text.Utf8.encode_append, Text.Utf8.encode_toString]
    congr 1

end Loopback

end Proxy.Target

namespace Config

/-- Every target URL that is made up for want of one can be used. -/
theorem spelled_of_unset {s : Settings} (hunset : s.proxy.targetUrl = "")
    (hurl : s.targetUrl ≠ "") : Proxy.Target.Spelled s.targetUrl := by
  unfold Settings.targetUrl at hurl ⊢
  split
  · rename_i hown
    rw [if_pos hown] at hurl
    exact absurd hunset hurl
  · split
    · have hparse : ((Proxy.Target.parse "http://localhost").toOption).isSome = true := by
        decide +kernel
      obtain ⟨t, ht⟩ := Option.isSome_iff_exists.mp hparse
      exact Proxy.Target.exists_parse_iff.mp ⟨t, ok_of_toOption ht⟩
    · exact Proxy.Target.spelled_loopback (UInt16.toNat_lt _)

section Making
variable {s : Settings} (files : Files) (hproxy : s.proxy.enabled = true)
include hproxy

/-- Nothing but the target can keep a server from being made. -/
theorem server_of_target {t : Proxy.Target} (h : Proxy.Target.parse s.targetUrl = .ok t) :
    ∃ server, Server.ofSettings s files = .ok server := by
  unfold Server.ofSettings Proxy.ReverseProxy.ofSettings
  rw [hproxy, h]
  exact ⟨_, rfl⟩

theorem server_of_error {e : Proxy.TargetError} (h : Proxy.Target.parse s.targetUrl = .error e) :
    Server.ofSettings s files = .error e := by
  unfold Server.ofSettings Proxy.ReverseProxy.ofSettings
  rw [hproxy, h]
  rfl

end Making

/-- Accepted settings are of use exactly if their target URL is spelled out as a URI, or left to the
application's port or socket; otherwise the server is not made, because the URL is no URI or one
without a scheme. -/
theorem server_iff_spelled {text : String} {s : Settings} (files : Files)
    (hparse : parse text = .ok s) (hproxy : s.proxy.enabled = true) :
    ((∃ server, Server.ofSettings s files = .ok server) ↔
      ∃ t, Proxy.Target.parse s.targetUrl = .ok t) ∧
    ((∃ server, Server.ofSettings s files = .ok server) ↔
      s.proxy.targetUrl = "" ∨ Proxy.Target.Spelled s.proxy.targetUrl) ∧
    ∀ e, Server.ofSettings s files = .error e →
      e.url = s.targetUrl ∧ (e.problem = .notAUri ∨ e.problem = .missingScheme) := by
  obtain ⟨written, -, rfl, hproblems⟩ := parse_eq_ok hparse
  generalize written.derivePort = s at hparse hproxy hproblems
  obtain ⟨hurl, parsed, hparsed, hscheme⟩ := parse_targetUrl hproblems hproxy
  have hmade : (∃ server, Server.ofSettings s files = .ok server) ↔
      ∃ t, Proxy.Target.parse s.targetUrl = .ok t := by
    constructor
    · rintro ⟨server, hserver⟩
      cases htarget : Proxy.Target.parse s.targetUrl with
      | ok t => exact ⟨t, rfl⟩
      | error e =>
        rw [server_of_error files hproxy htarget] at hserver
        cases hserver
    · rintro ⟨t, htarget⟩
      exact server_of_target files hproxy htarget
  refine ⟨hmade, ?_, ?_⟩
  · rw [hmade, Proxy.Target.exists_parse_iff]
    by_cases hunset : s.proxy.targetUrl = ""
    · exact iff_of_true (spelled_of_unset hunset hurl) (.inl hunset)
    · have hown : s.targetUrl = s.proxy.targetUrl := by
        unfold Settings.targetUrl
        rw [if_pos (by simp [hunset])]
      rw [hown, or_iff_right hunset]
  · intro e hserver
    cases hcheck : Proxy.Target.check s.targetUrl with
    | ok t =>
      have htarget : Proxy.Target.parse s.targetUrl = .ok t := by
        rw [Proxy.Target.parse, hcheck]
        rfl
      obtain ⟨server, hmade⟩ := server_of_target files hproxy htarget
      rw [hmade] at hserver
      cases hserver
    | error problem =>
      have htarget : Proxy.Target.parse s.targetUrl = .error ⟨s.targetUrl, problem⟩ := by
        rw [Proxy.Target.parse, hcheck]
        rfl
      rw [server_of_error files hproxy htarget] at hserver
      obtain rfl := Except.error.inj hserver
      exact ⟨rfl, Proxy.Target.problem_of_parse hparsed hscheme hcheck⟩

theorem server_of_spelled_out :
    let text := "[proxy]\ntarget_url = \"HTTP://backend:3000/app?v=1#top\""
    ∃ s, parse text = .ok s ∧ s.proxy.enabled = true ∧ s.proxy.targetUrl ≠ "" ∧
      ∀ files, ∃ server, Server.ofSettings s files = .ok server := by
  intro text
  let p : Http.Uri.Spelling := ⟨.ofLatin1 "HTTP", ⟨.ofLatin1 "backend:3000", by decide +kernel⟩,
    .ofLatin1 "/app", some (.ofLatin1 "v=1"), some (.ofLatin1 "top")⟩
  have hvalid : p.Valid := by
    constructor
    case name => decide +kernel
    case short => decide
    case path => decide +kernel
    case slash => decide +kernel
    case query => decide +kernel
    case fits => decide +kernel
  have hloaded : ((parse text).toOption.map fun s => (s.proxy.enabled, s.proxy.targetUrl)) =
      some (true, "HTTP://backend:3000/app?v=1#top") := by
    decide +kernel
  obtain ⟨s, hs, hloaded⟩ := Option.map_eq_some_iff.mp hloaded
  obtain ⟨hproxy, hurl⟩ := Prod.mk.inj hloaded
  have hspelled : Proxy.Target.Spelled s.proxy.targetUrl := by
    rw [hurl]
    exact ⟨p, hvalid, .inl (by decide +kernel), by decide +kernel⟩
  have hparse := ok_of_toOption hs
  refine ⟨s, hparse, hproxy, ?_, ?_⟩
  · rw [hurl]
    decide
  · intro files
    obtain ⟨-, hiff, -⟩ := server_iff_spelled files hparse hproxy
    exact hiff.mpr (.inr hspelled)

/-- One slash too few is forgiven when settings are accepted, and then the URL is none. -/
theorem no_server_of_single_slash :
    let text := "[proxy]\ntarget_url = \"http:/127.0.0.1:3000\""
    ∃ s, parse text = .ok s ∧ s.proxy.enabled = true ∧
      Proxy.Target.parse s.targetUrl = .error ⟨"http:/127.0.0.1:3000", .notAUri⟩ ∧
      ∀ files, ¬ ∃ server, Server.ofSettings s files = .ok server := by
  intro text
  have hloaded : ((parse text).toOption.map fun s => (s.proxy.enabled, s.targetUrl)) =
      some (true, "http:/127.0.0.1:3000") := by
    decide +kernel
  obtain ⟨s, hs, hloaded⟩ := Option.map_eq_some_iff.mp hloaded
  obtain ⟨hproxy, hurl⟩ := Prod.mk.inj hloaded
  have hread : Http.Uri.parse? (Text.Utf8.encode "http:/127.0.0.1:3000") = none := by
    decide +kernel
  have hfails : Proxy.Target.parse s.targetUrl = .error ⟨"http:/127.0.0.1:3000", .notAUri⟩ := by
    rw [hurl, Proxy.Target.parse, Proxy.Target.check, hread]
    rfl
  refine ⟨s, ok_of_toOption hs, hproxy, hfails, ?_⟩
  rintro files ⟨server, hserver⟩
  rw [server_of_error files hproxy hfails] at hserver
  cases hserver

end Config

end Gateway
