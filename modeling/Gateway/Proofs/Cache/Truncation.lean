import Gateway.Proofs.Cache.BlobForms

/-! Where a blob ends is told by the blob: what follows it is not read, and a blob that is cut short
is no blob. The latter comes of one property of readers of forms, that a value once read does not
depend on what stands behind it. -/
namespace Gateway.Cache

open Gateway.Http

namespace MessagePack

/-- What a reader reads stays the same when more octets follow, and it leaves them all. -/
def NoLookahead {α : Type} (read : Bytes → Option (α × Bytes)) : Prop :=
  ∀ ⦃bs a rest⦄, read bs = some (a, rest) → ∀ more, read (bs ++ more) = some (a, rest ++ more)

section
variable {α : Type} {read : Bytes → Option (α × Bytes)}

/-- A reader of forms takes a form from the front, whatever follows. -/
theorem Reads.noLookahead {forms : α → Language UInt8} (h : Reads read forms) :
    NoLookahead read := by
  intro bs a rest hread more
  obtain ⟨form, hform, rfl⟩ := h.sound hread
  rw [List.append_assoc]
  exact h.complete hform (rest ++ more)

/-- What is read up to its last octet cannot be read when it is cut short. -/
theorem NoLookahead.eq_none_of_isPrefix (h : NoLookahead read) {whole : Bytes} {a : α}
    (hwhole : read whole = some (a, [])) {p : Bytes} (hp : p <+: whole) (hne : p ≠ whole) :
    read p = none := by
  obtain ⟨more, rfl⟩ := hp
  refine Option.eq_none_iff_forall_ne_some.mpr fun ⟨b, rest⟩ hread => hne ?_
  have hboth : some (b, rest ++ more) = some (a, []) := (h hread more).symm.trans hwhole
  obtain ⟨-, hnil⟩ := Prod.mk.inj (Option.some.inj hboth)
  rw [(List.append_eq_nil_iff.mp hnil).2, List.append_nil]

end

end MessagePack

namespace Stored
open MessagePack

theorem read?_truncated {r : Stored} (h : r.Fits) {p : Bytes} (hp : p <+: r.encode)
    (hne : p ≠ r.encode) : Parts.read? p = none := by
  have hwhole : Parts.inOrder? r.writeParts = some (r.parts, []) := by
    simpa only [List.append_nil] using inOrder?_writeParts h []
  rw [encode_eq] at hp hne
  cases p with
  | nil => rfl
  | cons marker p =>
    obtain ⟨hmarker, htail⟩ := List.cons_prefix_cons.mp hp
    subst hmarker
    have hcut : Parts.inOrder? p = none :=
      reads_inOrder?.noLookahead.eq_none_of_isPrefix hwhole htail fun heq =>
        hne (congrArg (MessagePack.writeArray 4 ++ ·) heq)
    exact (Parts.read?_writeArray p).trans (congrArg (Option.map Prod.fst) hcut)

/-- A blob ends where its last part ends: octets after it change nothing, and a blob that lacks even
one octet is malformed. -/
theorem decode_encode_self_delimiting (r : Stored) (h : r.Fits) :
    (∀ t, decode (r.encode ++ t) = .ok r.withoutCookies ∧
      decode (r.encode ++ t) = decode r.encode) ∧
    ∀ p, p <+: r.encode → p ≠ r.encode → decode p = .error .malformed := by
  refine ⟨fun t => ?_, fun p hp hne => ?_⟩
  · have hread := decode_encode_append h t
    exact ⟨hread, hread.trans (decode_encode h).symm⟩
  · unfold decode
    rw [read?_truncated h hp hne]

/-- A long body, a repeated header and a recorded one: a second blob behind it is not read, and
without its last octet it is malformed. -/
theorem decode_encode_self_delimiting_of_long_body :
    let line (n : HeaderName) (s : String) (h : (Bytes.ofLatin1 s).all isValueByte = true) :=
      (n, HeaderValue.ofLatin1 s h)
    let r : Stored := ⟨.ok, .ofFields [line .vary "accept" (by decide),
      line .vary "cookie" (by decide)], List.replicate 300 7,
      .ofFields [line .acceptEncoding "gzip" (by decide)]⟩
    r.Fits ∧ decode (r.encode ++ r.encode) = .ok r.withoutCookies ∧
      decode (r.encode ++ r.encode) = decode r.encode ∧
      r.encode.dropLast <+: r.encode ∧ r.encode.dropLast ≠ r.encode ∧
      decode r.encode.dropLast = .error .malformed := by
  intro line r
  have hfits : r.Fits := by decide +kernel
  have hprefix : r.encode.dropLast <+: r.encode := List.dropLast_prefix _
  have hproper : r.encode.dropLast ≠ r.encode := by decide +kernel
  obtain ⟨hfollowed, hcut⟩ := decode_encode_self_delimiting r hfits
  exact ⟨hfits, (hfollowed r.encode).1, (hfollowed r.encode).2, hprefix, hproper,
    hcut r.encode.dropLast hprefix hproper⟩

end Stored

end Gateway.Cache
