import Gateway.Proxy.Forwarding

/-! A head that is rewritten step by step. Together the steps come to what goes to the target. -/
namespace Gateway.Proxy
open Http

namespace Rewriting
variable {α β : Type} (r : RequestHead)

/-- Takes the steps on a head: how they ended, and the head as they left it. -/
def on (m : Rewriting α) (r : RequestHead) : Except RewriteError α × RequestHead := m.run.run r

@[simp] theorem on_pure (a : α) : (pure a : Rewriting α).on r = (.ok a, r) := rfl

@[simp] theorem on_get : (get : Rewriting RequestHead).on r = (.ok r, r) := rfl

@[simp] theorem on_throw (e : RewriteError) : (throw e : Rewriting α).on r = (.error e, r) := rfl

@[simp] theorem on_modify (f : RequestHead → RequestHead) :
    (modify f : Rewriting PUnit).on r = (.ok ⟨⟩, f r) := rfl

@[simp] theorem on_changeHeaders (f : Headers → Headers) :
    (changeHeaders f).on r = (.ok (), { r with headers := f r.headers }) := rfl

/-- The next steps are taken on what the earlier ones left, unless these failed. -/
theorem on_bind (m : Rewriting α) (f : α → Rewriting β) :
    (m >>= f).on r = match m.on r with
      | (.ok a, s) => (f a).on s
      | (.error e, s) => (.error e, s) := by
  unfold on
  rw [ExceptT.run_bind, StateT.run_bind]
  rcases m.run.run r with ⟨e | a, s⟩
  · rfl
  · rfl

end Rewriting

/-- The steps taken one after the other come to the head that goes to the target. The only one that
can fail is the first. -/
theorem rewrite_on (t : Target) (c : ForwardingContext) (r : RequestHead) :
    (rewrite t c).on r = match outbound? r t c with
      | some sent => (.ok (), sent)
      | none => (.error .tooLong, r) := by
  unfold rewrite outbound?
  rw [Rewriting.on_bind]
  simp only [Rewriting.on_get]
  cases hlocated : t.locate? r.uri with
  | none => simp
  | some uri =>
    simp only [Rewriting.on_bind, Rewriting.on_modify, Rewriting.on_changeHeaders,
      Rewriting.on_pure, Option.map_some, forwardHeaders]
    -- The steps that are taken only on a wish of the request split the run.
    cases r.headers.hasToken .te (.ofLatin1 "trailers") <;> cases upgradeType? r.headers <;>
      simp [Rewriting.on_bind]

end Gateway.Proxy
