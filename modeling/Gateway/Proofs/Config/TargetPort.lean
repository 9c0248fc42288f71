import Gateway.Config.Load
import Gateway.Proofs.App.Environment
import Gateway.Proofs.Config.AuthorityPort
import Gateway.Proofs.Proxy.TargetParts

/-! The port that the application is told to listen on, and the port that the proxy dials. Both come
from the target URL, but only one of the two readings knows the schemes' own ports. -/
namespace Gateway

namespace Proxy.Target
open Http

/-- Where a target leads whose URL spells out no port. -/
def schemePort (t : Target) : UInt16 := if t.scheme = .https then 443 else 80

/-- The text of a target's URL begins with its scheme and its authority. -/
theorem text_of_check {url : String} {t : Target} (h : check url = .ok t) : ∃ name tail,
    url.toList = charsOf (Config.Url.upToAuthority name t.authority) ++ tail ∧
      name.all Scheme.isByte = true ∧ t.scheme = Scheme.ofBytes name ∧
      (t.scheme = .http ∨ t.scheme = .https) ∧
      ∀ c ∈ tail.head?, Config.Url.endsAuthority true c = true := by
  obtain ⟨u, hu, hdenotes⟩ := check_eq_ok_iff.mp h
  obtain ⟨name, a, rest, hsplits, hof, hread⟩ := Uri.splits_of_parse? hu hdenotes.scheme
  obtain rfl := Option.some.inj ((Uri.readPath?_eq hread).2.symm.trans hdenotes.authority)
  obtain ⟨tail, htext, htail⟩ := Config.Url.text_of_splits hsplits
  exact ⟨name, tail, htext, hsplits.isName, hof, hdenotes.known, htail⟩

/-- The scheme of a target in lower case, and its port. -/
theorem lower_of_scheme {t : Target} {name : Bytes} (hscheme : t.scheme = Scheme.ofBytes name)
    (hknown : t.scheme = .http ∨ t.scheme = .https) :
    Config.Url.isHosted (String.ofList (charsOf name.lower)) = true ∧
      Config.Url.defaultPort? (String.ofList (charsOf name.lower)) = some t.schemePort.toNat := by
  unfold Scheme.ofBytes Bytes.eqIgnoreCase at hscheme
  split_ifs at hscheme with hhttp hhttps
  · rw [beq_iff_eq.mp hhttp, schemePort, hscheme]
    decide +kernel
  · rw [beq_iff_eq.mp hhttps, schemePort, hscheme]
    decide +kernel
  · rw [hscheme] at hknown
    rcases hknown with h | h <;> cases h

/-- A URL knows the port of the authority, unless it is the scheme's own. -/
theorem port_of_parse {url : String} {parsed : Config.Url} {t : Target}
    (hparse : Config.Url.parse url = .ok parsed) (hcheck : check url = .ok t) :
    parsed.port = t.authority.port?.filter (· ≠ t.schemePort) := by
  obtain ⟨name, tail, htext, hname, hscheme, hknown, htail⟩ := text_of_check hcheck
  obtain ⟨hhosted, hdefault⟩ := lower_of_scheme hscheme hknown
  obtain ⟨tail', hhead, hauthority⟩ :=
    Config.Url.authority_of_parse htext hname htail hhosted hparse
  obtain ⟨spelled, hspelled, hport⟩ := Config.Url.port_of_authority hhosted hauthority
  obtain ⟨hagree, hsmall⟩ := Config.Url.port?_eq_of_spelledPort? (hhead ▸ htail) hspelled
  rw [hport, hagree, hdefault]
  cases spelled with
  | none => rfl
  | some n =>
    have hn : n.toUInt16.toNat = n := by
      have hlt := hsmall n rfl
      simp
      omega
    have hiff : n.toUInt16 = t.schemePort ↔ n = t.schemePort.toNat := by
      rw [← UInt16.toNat_inj, hn]
    rw [Option.map_some]
    by_cases heq : n = t.schemePort.toNat
    · rw [Option.filter_some_neg (by simp [heq]), Option.filter_some_neg (by simp [hiff.mpr heq])]
      rfl
    · rw [Option.filter_some_pos (by simp [heq]),
        Option.filter_some_pos (by simp [hiff.not.mpr heq])]
      rfl

end Proxy.Target

namespace Config

def written? (text : String) : Option Settings :=
  (Toml.parse? text).bind fun es => settings? true (.table .header es)

theorem parse_eq_ok {text : String} {s : Settings} (h : parse text = .ok s) :
    ∃ written, written? text = some written ∧ s = written.derivePort ∧ problems s = [] := by
  unfold parse at h
  split at h
  · cases h
  · rename_i written hwritten
    dsimp only at h
    split_ifs at h with hproblems
    obtain rfl := Except.ok.inj h
    exact ⟨written, hwritten, rfl, hproblems⟩

theorem derivePort_same (s : Settings) : s.derivePort.proxy = s.proxy ∧
    s.derivePort.app.enabled = s.app.enabled ∧ s.derivePort.app.socket = s.app.socket := by
  unfold Settings.derivePort
  split <;> exact ⟨rfl, rfl, rfl⟩

theorem port_derivePort {s : Settings} (happ : s.derivePort.app.enabled = true)
    (hsocket : s.derivePort.app.socket = "") (hport : s.app.port = 0) :
    s.derivePort.app.port = s.portOfTarget := by
  obtain ⟨-, henabled, hsame⟩ := derivePort_same s
  rw [henabled] at happ
  rw [hsame] at hsocket
  unfold Settings.derivePort
  rw [happ, hsocket, hport]
  rfl

/-- Settings with nothing wrong have a target URL, with a scheme that the proxy speaks. -/
theorem parse_targetUrl {s : Settings} (hproblems : problems s = [])
    (hproxy : s.proxy.enabled = true) : s.targetUrl ≠ "" ∧
      ∃ url, Url.parse s.targetUrl = .ok url ∧ (url.scheme = "http" ∨ url.scheme = "https") := by
  have hproxyProblems : proxyProblems s = [] := by
    unfold problems at hproblems
    simp only [List.append_eq_nil_iff] at hproblems
    exact hproblems.1.1.1
  unfold proxyProblems at hproxyProblems
  rw [hproxy, Bool.not_true, if_neg Bool.false_ne_true] at hproxyProblems
  have hnone := (List.append_eq_nil_iff.mp hproxyProblems).1
  split at hnone
  · cases hnone
  · rename_i hurl
    refine ⟨hurl, ?_⟩
    unfold targetProblem? at hnone
    split at hnone
    · cases hnone
    · rename_i url hparsed
      refine ⟨url, hparsed, ?_⟩
      split at hnone
      · cases hnone
      · rename_i hscheme
        simpa [Classical.or_iff_not_imp_left] using hscheme

/-- Without a target URL the proxy dials the port that the application is told. -/
theorem port_eq_of_no_url {s : Settings} {t : Proxy.Target} (happ : s.app.enabled = true)
    (hsocket : s.app.socket = "") (hurl : s.proxy.targetUrl = "")
    (hport : s.app.port = defaultAppPort) (hcheck : Proxy.Target.check s.targetUrl = .ok t) :
    s.app.port = t.dialPort := by
  have htext : s.targetUrl = "http://127.0.0.1:3000" := by
    unfold Settings.targetUrl
    rw [hurl, happ, hsocket, hport]
    decide +kernel
  have hdial : (Proxy.Target.check "http://127.0.0.1:3000").toOption.map (·.dialPort) =
      some defaultAppPort := by
    decide +kernel
  rw [htext] at hcheck
  rw [hcheck] at hdial
  exact hport.trans (Option.some.inj hdial).symm

/-- The default port is no scheme's own, so it is never what is dialled in place of a port that the
URL keeps to itself. -/
theorem getD_eq_dialPort_iff {url : Url} {t : Proxy.Target}
    (h : url.port = t.authority.port?.filter (· ≠ t.schemePort)) :
    url.port.getD defaultAppPort = t.dialPort ↔
      ∃ p, t.authority.port? = some p ∧ p ≠ t.schemePort := by
  have hdefault : defaultAppPort ≠ t.schemePort := by
    unfold Proxy.Target.schemePort
    split <;> decide
  have hdial : t.dialPort = t.authority.port?.getD t.schemePort := rfl
  rw [h, hdial]
  cases t.authority.port? with
  | none => simpa using hdefault
  | some p =>
    by_cases hp : p = t.schemePort
    · rw [Option.filter_some_neg (by simp [hp])]
      simpa [hp] using hdefault
    · rw [Option.filter_some_pos (by simp [hp])]
      simp [hp]

/-- The port that is derived is the application's `PORT`, and it is the port that the proxy dials if
the target URL is not set or spells out a port other than its scheme's own, and in no other case. -/
theorem port_eq_dialPort_iff {text : String} {written s : Settings} {t : Proxy.Target}
    (hwritten : written? text = some written) (hport : written.app.port = 0)
    (hparse : parse text = .ok s) (hproxy : s.proxy.enabled = true) (happ : s.app.enabled = true)
    (hsocket : s.app.socket = "") (htarget : Proxy.Target.parse s.targetUrl = .ok t) :
    (∀ parent, s.app.port ≠ 0 → (∀ e ∈ s.app.env, e.1 ≠ "PORT") →
      (App.appEnvironment parent s.app).lookup "PORT" = some (toString s.app.port.toNat)) ∧
    (s.app.port = t.dialPort ↔
      s.proxy.targetUrl = "" ∨ ∃ p, t.authority.port? = some p ∧ p ≠ t.schemePort) := by
  refine ⟨fun parent hset henv => App.lookup_port hsocket hset henv, ?_⟩
  obtain ⟨written', hwritten', rfl, hproblems⟩ := parse_eq_ok hparse
  obtain rfl := Option.some.inj (hwritten'.symm.trans hwritten)
  have hcheck := Proxy.Target.check_eq_ok_iff.mpr (Proxy.Target.parse_eq_ok_iff.mp htarget)
  have hderived := port_derivePort happ hsocket hport
  obtain ⟨hsame, -, -⟩ := derivePort_same written'
  by_cases hempty : written'.derivePort.proxy.targetUrl = ""
  · have hdefault : written'.portOfTarget = defaultAppPort := by
      unfold Settings.portOfTarget
      rw [← hsame, hempty]
      decide +kernel
    exact iff_of_true
      (port_eq_of_no_url happ hsocket hempty (hderived.trans hdefault) hcheck) (.inl hempty)
  · have hurl : written'.derivePort.targetUrl = written'.derivePort.proxy.targetUrl := by
      unfold Settings.targetUrl
      rw [if_pos (by simp [hempty])]
    obtain ⟨-, url, hparsed, -⟩ := parse_targetUrl hproblems hproxy
    have hagree := Proxy.Target.port_of_parse hparsed hcheck
    have hfound : written'.portOfTarget = url.port.getD defaultAppPort := by
      unfold Settings.portOfTarget
      rw [← hsame, ← hurl, hparsed]
    rw [hderived, hfound, getD_eq_dialPort_iff hagree]
    simp [hempty]

theorem port_eq_dialPort_of_spelled_out :
    let text :=
      "[upstream]\nenabled = true\ncommand = \"app\"\n[proxy]\ntarget_url = \"http://[::1]:5123\""
    ∃ s t, parse text = .ok s ∧ Proxy.Target.parse s.targetUrl = .ok t ∧ t.dialPort = 5123 ∧
      s.app.port = t.dialPort ∧ (App.appEnvironment [] s.app).lookup "PORT" = some "5123" := by
  intro text
  have hloaded : ((parse text).toOption.bind fun s => (Proxy.Target.parse s.targetUrl).toOption.map
      fun t => (s.proxy.enabled, s.app, t.authority.port?, t.scheme)) =
      some (true, { enabled := true, command := "app", port := 5123 }, some 5123, .http) := by
    decide +kernel
  have hunset : (written? text).map (·.app.port) = some 0 := by decide +kernel
  obtain ⟨written, hwritten, hport⟩ := Option.map_eq_some_iff.mp hunset
  obtain ⟨s, hs, hloaded⟩ := Option.bind_eq_some_iff.mp hloaded
  obtain ⟨t, ht, hloaded⟩ := Option.map_eq_some_iff.mp hloaded
  obtain ⟨hproxy, happ, hspelled, hscheme⟩ : s.proxy.enabled = true ∧
      s.app = { enabled := true, command := "app", port := 5123 } ∧
      t.authority.port? = some 5123 ∧ t.scheme = .http := by
    simpa using hloaded
  have hparse := ok_of_toOption hs
  have htarget := ok_of_toOption ht
  obtain ⟨htold, hiff⟩ := port_eq_dialPort_iff hwritten hport hparse hproxy (by rw [happ])
    (by rw [happ]) htarget
  have hother : (5123 : UInt16) ≠ t.schemePort := by
    unfold Proxy.Target.schemePort
    rw [hscheme]
    decide
  have hagree := hiff.mpr (.inr ⟨5123, hspelled, hother⟩)
  have hnumber : s.app.port = 5123 := by rw [happ]
  have hexported := htold [] (by rw [hnumber]; decide) (by rw [happ]; exact nofun)
  refine ⟨s, t, hparse, htarget, hagree ▸ hnumber, hagree, ?_⟩
  rw [hexported, hnumber]
  decide +kernel

/-- The proxy dials the port that the URL spells out, and the application is told another one. -/
theorem port_ne_dialPort_of_scheme_port :
    let text :=
      "[upstream]\nenabled = true\ncommand = \"app\"\n[proxy]\ntarget_url = \"http://127.0.0.1:80\""
    (written? text).map (·.app.port) = some 0 ∧ ∃ s t, parse text = .ok s ∧
      s.proxy.enabled = true ∧ s.app.enabled = true ∧ s.app.socket = "" ∧
      Proxy.Target.parse s.targetUrl = .ok t ∧ t.dialPort = 80 ∧ s.app.port ≠ t.dialPort ∧
      App.appEnvironment [] s.app = [("PORT", "3000")] := by
  intro text
  have hloaded : ((parse text).toOption.bind fun s => (Proxy.Target.parse s.targetUrl).toOption.map
      fun t => (s.proxy.enabled, s.app, t.dialPort)) =
      some (true, { enabled := true, command := "app", port := 3000 }, 80) := by
    decide +kernel
  obtain ⟨s, hs, hloaded⟩ := Option.bind_eq_some_iff.mp hloaded
  obtain ⟨t, ht, hloaded⟩ := Option.map_eq_some_iff.mp hloaded
  obtain ⟨hproxy, happ, hdial⟩ : s.proxy.enabled = true ∧
      s.app = { enabled := true, command := "app", port := 3000 } ∧ t.dialPort = 80 := by
    simpa using hloaded
  refine ⟨by decide +kernel, s, t, ok_of_toOption hs, hproxy, by rw [happ], by rw [happ],
    ok_of_toOption ht, hdial, ?_, ?_⟩
  · rw [happ, hdial]
    decide
  · rw [happ]
    decide +kernel

end Config

end Gateway
