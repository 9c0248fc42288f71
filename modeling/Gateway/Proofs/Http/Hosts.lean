import Gateway.Proofs.Config.AuthorityPort
import Gateway.Proofs.Http.AbsoluteUri

/-! The host of an authority as a text of its own. It need not be an authority, for brackets may
open in the user information; where it is one, it stays the host when a port is put behind it. -/
namespace Gateway

/-- A number is read from its digits. -/
theorem Bytes.unsigned?_ofNat {n bound : Nat} (h : n < bound) :
    unsigned? bound (ofNat n) = some n := by
  have hvalue : (ofNat n).foldl (fun n b => n * 10 + (b.toNat - 48)) 0 = n := by
    have hdigit : ∀ c ∈ Nat.toDigits 10 n, c.toNat < 256 := by
      have hascii : ∀ d < 10, (Nat.digitChar d).toNat < 256 := by decide
      intro c hc
      obtain ⟨d, hd, rfl⟩ := digitChar_of_mem_toDigits (by decide) n c hc
      exact hascii d hd
    have hfold : Nat.ofDigitChars 10 (Nat.toDigits 10 n) 0 = n :=
      Nat.ofDigitChars_toDigits (by decide) (by decide)
    rw [Nat.ofDigitChars_eq_foldl] at hfold
    unfold ofNat
    rw [List.foldl_map]
    refine (List.foldl_ext _ _ 0 fun m c hc => ?_).trans hfold
    rw [Text.Utf8.toNat_toUInt8 (hdigit c hc), Nat.mul_comm]
    rfl
  have hne : ofNat n ≠ [] := by
    unfold ofNat
    exact mt List.map_eq_nil_iff.mp Nat.toDigits_ne_nil
  rw [unsigned?_of_digits (fun b hb => isDigit_of_mem_ofNat hb), if_neg hne, hvalue,
    Option.filter_some_pos (by simpa using h)]

namespace Http

namespace AuthorityScan
variable {s t : AuthorityScan} {b : UInt8} {bs : Bytes}

/-- Only a colon adds to the colons. -/
theorem colons_of_step? (h : s.step? b = some t) (hb : b ≠ 58) : t.colons ≤ s.colons := by
  unfold step? at h
  split_ifs at h with hcolon hmany hopen hbad hclose hbad' hat hpercent hother
  · exact absurd (beq_iff_eq.mp hcolon) hb
  · obtain rfl := Option.some.inj h
    exact le_rfl
  · obtain rfl := Option.some.inj h
    exact Nat.zero_le _
  · obtain rfl := Option.some.inj h
    exact Nat.zero_le _
  · obtain rfl := Option.some.inj h
    exact le_rfl
  · obtain rfl := Option.some.inj h
    exact le_rfl

theorem colons_of_run? (h : s.run? bs = some t) (hnot : 58 ∉ bs) : t.colons ≤ s.colons := by
  induction bs generalizing s with
  | nil =>
    obtain rfl := Option.some.inj h
    exact le_rfl
  | cons c bs ih =>
    obtain ⟨u, hu, hrest⟩ := Option.bind_eq_some_iff.mp h
    rw [List.mem_cons, not_or] at hnot
    exact (ih hrest hnot.2).trans (colons_of_step? hu (Ne.symm hnot.1))

/-- A closing bracket settles everything. -/
theorem run?_close (h : s.run? (bs ++ [93]) = some t) :
    t.opened = true ∧ t.closed = true ∧ t.colons = 0 ∧ t.percent = false := by
  rw [run?_append] at h
  obtain ⟨u, -, hclose⟩ := Option.bind_eq_some_iff.mp h
  obtain ⟨v, hv, hend⟩ := Option.bind_eq_some_iff.mp hclose
  obtain rfl := Option.some.inj hend
  change (if (!u.opened || u.closed) = true then none
    else some { u with closed := true, colons := 0, percent := false }) = some v at hv
  split_ifs at hv with hbad
  obtain rfl := Option.some.inj hv
  simp only [Bool.or_eq_true, Bool.not_eq_true', not_or, Bool.not_eq_false] at hbad
  exact ⟨hbad.1, rfl, rfl, rfl⟩

end AuthorityScan

theorem isAuthority_iff {bs : Bytes} : isAuthority bs = true ↔ ∃ s,
    AuthorityScan.start.run? bs = some s ∧ s.opened = s.closed ∧ s.colons ≤ 1 ∧ s.percent = false ∧
      bs ≠ [] ∧ bs.getLast? ≠ some 64 := by
  unfold isAuthority
  cases AuthorityScan.start.run? bs with
  | none => simp
  | some s => simp [and_assoc]

/-- A host alone: an address in brackets, or a name without colons. -/
def IsHost (h : Bytes) : Prop :=
  64 ∉ h ∧ ((∃ inner, h = 91 :: (inner ++ [93]) ∧ 93 ∉ inner) ∨ (h.head? ≠ some 91 ∧ 58 ∉ h))

theorem getLast?_ne_of_isHost {h : Bytes} (hh : IsHost h) : h.getLast? ≠ some 64 := by
  intro hlast
  exact hh.1 (List.mem_of_getLast? hlast)

namespace Authority
open Uri (marked)
variable {a : Authority} {host : Bytes} {port : Option Bytes}

theorem exists_user (a : Authority) : ∃ user, a.bytes = user ++ a.hostPort ∧ 64 ∉ a.hostPort ∧
    (user = [] ∨ ∃ u, user = u ++ [64]) := by
  by_cases hat : 64 ∈ a.bytes
  · obtain ⟨front, hsplit, hnot⟩ := split_last (p := (· != 64)) hat (by simp)
    refine ⟨front ++ [64], ?_, hnot, .inr ⟨front, rfl⟩⟩
    rw [List.append_assoc]
    exact hsplit
  · have hall : ∀ b ∈ a.bytes.reverse, (b != 64) = true := by
      intro b hb
      rw [bne_iff_ne]
      rintro rfl
      exact hat (List.mem_reverse.mp hb)
    have hwhole : a.hostPort = a.bytes := by
      unfold hostPort
      rw [List.takeWhile_eq_self_iff.mpr hall, List.reverse_reverse]
    exact ⟨[], hwhole.symm, hwhole ▸ hat, .inl rfl⟩

theorem hostPort_eq (h : 64 ∉ a.bytes) : a.hostPort = a.bytes := by
  obtain ⟨user, hbytes, -, rfl | ⟨u, rfl⟩⟩ := a.exists_user
  · exact hbytes.symm
  · exact absurd (by rw [hbytes]; simp) h

/-- A host in brackets ends with the first closing one, any other host before the first colon. -/
theorem isHost_host (a : Authority) : IsHost a.host ∧ ∃ rest, a.hostPort = a.host ++ rest := by
  obtain ⟨user, hbytes, hat, -⟩ := a.exists_user
  have hfront {p : UInt8 → Bool} : 64 ∉ a.hostPort.takeWhile p := fun hmem =>
    hat ((List.takeWhile_sublist p).subset hmem)
  unfold Authority.host
  by_cases hopen : a.hostPort.head? = some 91
  · rw [if_pos (beq_iff_eq.mpr hopen)]
    obtain ⟨inside, hinside⟩ := List.head?_eq_some_iff.mp hopen
    have hvalid : isAuthority (user ++ 91 :: inside) = true := by
      rw [← hinside, ← hbytes]
      exact a.valid
    have hclose : 93 ∈ inside := mem_of_isAuthority hvalid
    have htake : a.hostPort.takeWhile (· != 93) = 91 :: inside.takeWhile (· != 93) := by
      rw [hinside]
      rfl
    have hnot : 93 ∉ inside.takeWhile (· != 93) := fun hmem => by
      simpa using List.mem_takeWhile_imp hmem
    have hwhole : a.hostPort.takeWhile (· != 93) ++ [93] =
        91 :: (inside.takeWhile (· != 93) ++ [93]) := by rw [htake]; rfl
    refine ⟨⟨by simpa using hfront, .inl ⟨_, hwhole, hnot⟩⟩, ?_⟩
    obtain ⟨part, hpart⟩ := Uri.exists_marked 93 inside
    cases part with
    | none =>
      rw [marked, List.append_nil] at hpart
      exact absurd (hpart ▸ hclose) hnot
    | some rest =>
      refine ⟨rest, ?_⟩
      rw [htake, hinside]
      simpa [marked] using hpart
  · rw [if_neg (beq_iff_eq.not.mpr hopen)]
    refine ⟨⟨hfront, .inr ⟨?_, ?_⟩⟩, _, List.takeWhile_append_dropWhile.symm⟩
    · rw [List.head?_takeWhile]
      intro hhead
      exact hopen (Option.filter_eq_some_iff.mp hhead).1
    · intro hmem
      simpa using List.mem_takeWhile_imp hmem

/-- A host with a port behind it is the host of both. -/
theorem host_of_marked (hbytes : a.bytes = host ++ marked 58 port) (hh : IsHost host)
    (hne : host ≠ []) (hport : 64 ∉ marked 58 port) : a.host = host := by
  obtain ⟨hat, hshape⟩ := hh
  have hwhole : a.hostPort = host ++ marked 58 port := by
    refine hbytes ▸ hostPort_eq ?_
    rw [hbytes, List.mem_append, not_or]
    exact ⟨hat, hport⟩
  have hhead : a.hostPort.head? = host.head? := by
    rw [hwhole]
    exact List.head?_append_of_ne_nil _ hne
  unfold Authority.host
  rw [hhead]
  rcases hshape with ⟨inner, rfl, hnot⟩ | ⟨hopen, hcolon⟩
  · have hinside : ∀ b ∈ 91 :: inner, (b != 93) = true := by
      intro b hb
      rw [bne_iff_ne]
      rintro rfl
      exact hnot ((List.mem_cons.mp hb).resolve_left (by decide))
    have hend : ∀ b ∈ (93 :: marked 58 port).head?, (b != 93) = false := by
      intro b hb
      obtain rfl := Option.some.inj hb
      rfl
    have hcut := (takeWhile_append_of_head hinside hend).1
    rw [if_pos (by rfl), hwhole]
    simpa using congrArg (· ++ [93]) hcut
  · have hname : ∀ b ∈ host, (b != 58) = true := by
      intro b hb
      rw [bne_iff_ne]
      rintro rfl
      exact hcolon hb
    have hend : ∀ b ∈ (marked 58 port).head?, (b != 58) = false := by
      intro b hb
      rw [Uri.eq_mark_of_head? hb]
      rfl
    rw [if_neg (beq_iff_eq.not.mpr hopen), hwhole, (takeWhile_append_of_head hname hend).1]

/-- A bare host has no port: colons stand between brackets, and what follows the last of them is no
number. -/
theorem port?_of_isHost (hh : IsHost a.bytes) : a.port? = none := by
  by_cases hcolon : 58 ∈ a.bytes
  · rcases hh.2 with ⟨inner, hbytes, -⟩ | ⟨-, hnot⟩
    · obtain ⟨front, hsplit, hlast⟩ := split_last (p := (· != 58)) hcolon (by simp)
      have hclose : 93 ∈ (a.bytes.reverse.takeWhile (· != 58)).reverse := by
        rw [hbytes]
        simp
      rw [port?_of_last hsplit hlast, Bytes.unsigned?_of_mem hclose (by decide) (by decide)]
      rfl
    · exact absurd hcolon hnot
  · unfold port?
    rw [if_neg (by simpa using hcolon)]

end Authority

/-- After a host there has been no colon outside brackets. -/
theorem colons_of_isHost {h : Bytes} {s : AuthorityScan} (hh : IsHost h)
    (hrun : AuthorityScan.start.run? h = some s) : s.colons = 0 := by
  rcases hh.2 with ⟨inner, rfl, -⟩ | ⟨-, hcolon⟩
  · rw [← List.cons_append] at hrun
    exact (AuthorityScan.run?_close hrun).2.2.1
  · exact Nat.le_zero.mp (AuthorityScan.colons_of_run? hrun hcolon)

/-- A host can stand with a port behind it when it can stand alone. -/
theorem isAuthority_append_port {h digits : Bytes} (hh : IsHost h) (hne : h ≠ [])
    (hdigits : ∀ b ∈ digits, Bytes.isDigit b = true) :
    isAuthority (h ++ 58 :: digits) = true ↔ isAuthority h = true := by
  have hlast : (h ++ 58 :: digits).getLast? ≠ some 64 := by
    intro hlast
    rcases List.mem_append.mp (List.mem_of_getLast? hlast) with hmem | hmem
    · exact hh.1 hmem
    · exact absurd (hdigits 64 ((List.mem_cons.mp hmem).resolve_left (by decide))) (by decide)
  have hrun : AuthorityScan.start.run? (h ++ 58 :: digits) =
      (AuthorityScan.start.run? h).map fun s => { s with colons := 1 } := by
    rw [AuthorityScan.run?_append]
    cases hscan : AuthorityScan.start.run? h with
    | none => rfl
    | some s =>
      have hcolon : s.step? 58 = some { s with colons := 1 } := by
        change (if s.colons ≥ AuthorityScan.maxColons then none
          else some { s with colons := s.colons + 1 }) = _
        rw [colons_of_isHost hh hscan]
        rfl
      rw [Option.bind_some, AuthorityScan.run?, hcolon, Option.bind_some,
        AuthorityScan.run?_digits hdigits, Option.map_some]
  rw [isAuthority_iff, isAuthority_iff, hrun]
  constructor
  · rintro ⟨t, ht, hbrackets, -, hpercent, -⟩
    obtain ⟨s, hs, rfl⟩ := Option.map_eq_some_iff.mp ht
    have hcolons := colons_of_isHost hh hs
    exact ⟨s, hs, hbrackets, by omega, hpercent, hne, getLast?_ne_of_isHost hh⟩
  · rintro ⟨s, hs, hbrackets, -, hpercent, -⟩
    refine ⟨{ s with colons := 1 }, by rw [hs]; rfl, hbrackets, le_rfl, hpercent, ?_, hlast⟩
    simp [hne]

end Http

end Gateway
