import Gateway.Proofs.Http.UriParts
import Gateway.Proxy.Target
import Mathlib.Data.List.DropRight

/-! A target is what its URL says when it is read as a URI. -/
namespace Gateway

theorem ok_of_toOption {ε α : Type} {x : Except ε α} {a : α} (h : x.toOption = some a) :
    x = .ok a := by
  cases x with
  | error e => cases h
  | ok b => exact congrArg _ (Option.some.inj h)

namespace Proxy.Target
open Http

/-- The target that a URI denotes: everything of it but the slashes at its path's end, and a query
only when there is something in it. -/
structure Denotes (u : Uri) (t : Target) : Prop where
  scheme : u.scheme = some t.scheme
  known : t.scheme = .http ∨ t.scheme = .https
  authority : u.authority = some t.authority
  basePath : t.basePath = u.path.rdropWhile (· == 47)
  baseQuery : t.baseQuery = u.query.filter (!·.isEmpty)

variable {url : String} {t : Target}

theorem check_eq_ok_iff :
    check url = .ok t ↔ ∃ u, Uri.parse? (Text.Utf8.encode url) = some u ∧ Denotes u t := by
  unfold check
  constructor
  · intro h
    split at h
    · cases h
    · rename_i u hu
      split at h
      · cases h
      · cases h
      · rename_i scheme hknown hscheme
        split at h
        · cases h
        · rename_i authority hauthority
          obtain rfl := Except.ok.inj h
          refine ⟨u, hu, hscheme, ?_, hauthority, rfl, rfl⟩
          cases scheme with
          | http => exact .inl rfl
          | https => exact .inr rfl
          | other name => exact absurd rfl (hknown name)
  · rintro ⟨u, hu, hscheme, hknown, hauthority, hpath, hquery⟩
    obtain ⟨scheme, authority, basePath, baseQuery⟩ := t
    dsimp only at hscheme hknown hauthority hpath hquery
    rw [hu]
    dsimp only
    rw [hscheme, hauthority, hpath, hquery]
    rcases hknown with rfl | rfl <;> rfl

theorem parse_eq_ok_iff :
    parse url = .ok t ↔ ∃ u, Uri.parse? (Text.Utf8.encode url) = some u ∧ Denotes u t := by
  rw [← check_eq_ok_iff]
  unfold parse
  cases check url with
  | error e => exact iff_of_false nofun nofun
  | ok u => simp only [Except.mapError, Except.ok.injEq]

end Proxy.Target

end Gateway
