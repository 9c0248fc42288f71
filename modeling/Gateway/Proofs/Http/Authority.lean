import Gateway.Http.Uri
import Gateway.Proofs.Text.Octets

/-! The text of a URI that has been read, up to the end of its authority. -/
namespace Gateway.Http

/-- An octet that stands in an authority: visible ASCII, and neither a slash, a backslash nor what
begins a query or a fragment. -/
def isAuthorityByte (b : UInt8) : Bool :=
  0x20 < b && b < 0x7F && b != 47 && b != 63 && b != 35 && b != 92

namespace AuthorityScan

/-- What one octet does to a scan, apart from the colons and percent signs. -/
inductive Reads (s : AuthorityScan) (b : UInt8) (t : AuthorityScan) : Prop
  | opens (hb : b = 91) (hs : s.opened = false) (ht : t.opened = true)
      (hclosed : t.closed = s.closed)
  | closes (hb : b = 93) (hs : s.opened = true) (ht : t.opened = true) (hclosed : t.closed = true)
  | passes (hopen : b ≠ 91) (hclose : b ≠ 93) (ht : t.opened = s.opened)
      (hclosed : t.closed = s.closed)

variable {s t : AuthorityScan} {b : UInt8} {bs : Bytes}

theorem reads_of_step? (h : s.step? b = some t) : Reads s b t ∧ isAuthorityByte b = true := by
  have hplain : ∀ b : UInt8,
      (Bytes.isAlphanumeric b || (Bytes.ofLatin1 "!$&'()*+,-.;=_~").contains b) = true →
      isAuthorityByte b = true := forall_octet (by decide +kernel)
  unfold step? at h
  split_ifs at h with hcolon hmany hopen hbad hclose hbad' hat hpercent hother
  · obtain rfl := Option.some.inj h
    obtain rfl := beq_iff_eq.mp hcolon
    exact ⟨.passes (by decide) (by decide) rfl rfl, rfl⟩
  · obtain rfl := Option.some.inj h
    obtain rfl := beq_iff_eq.mp hopen
    refine ⟨.opens rfl ?_ rfl rfl, rfl⟩
    simp only [Bool.or_eq_true, not_or, Bool.not_eq_true] at hbad
    exact hbad.2
  · obtain rfl := Option.some.inj h
    obtain rfl := beq_iff_eq.mp hclose
    simp only [Bool.or_eq_true, Bool.not_eq_true', not_or, Bool.not_eq_false] at hbad'
    exact ⟨.closes rfl hbad'.1 hbad'.1 rfl, rfl⟩
  · obtain rfl := Option.some.inj h
    obtain rfl := beq_iff_eq.mp hat
    exact ⟨.passes (by decide) (by decide) rfl rfl, rfl⟩
  · obtain rfl := Option.some.inj h
    obtain rfl := beq_iff_eq.mp hpercent
    exact ⟨.passes (by decide) (by decide) rfl rfl, rfl⟩
  · obtain rfl := Option.some.inj h
    refine ⟨.passes ?_ ?_ rfl rfl, hplain b hother⟩
    · rintro rfl
      exact hopen rfl
    · rintro rfl
      exact hclose rfl

theorem run?_append (s : AuthorityScan) (as bs : Bytes) :
    s.run? (as ++ bs) = (s.run? as).bind (·.run? bs) := by
  induction as generalizing s with
  | nil => rfl
  | cons a as ih =>
    simp only [List.cons_append, run?]
    cases s.step? a with
    | none => rfl
    | some t => exact ih t

/-- Digits leave a scan as it is. -/
theorem run?_digits (h : ∀ b ∈ bs, Bytes.isDigit b = true) : s.run? bs = some s := by
  induction bs with
  | nil => rfl
  | cons b bs ih =>
    have hstep : s.step? b = some s := by
      have hdigit : Bytes.isDigit b = true := h b List.mem_cons_self
      have halphanumeric : Bytes.isAlphanumeric b = true := by rw [Bytes.isAlphanumeric, hdigit]; rfl
      have hmark : (b == 58 || b == 91 || b == 93 || b == 64 || b == 37) = false := by
        grind [Bytes.isDigit]
      simp only [Bool.or_eq_false_iff] at hmark
      obtain ⟨⟨⟨⟨hcolon, hopen⟩, hclose⟩, hat⟩, hpercent⟩ := hmark
      unfold step?
      rw [hcolon, hopen, hclose, hat, hpercent, halphanumeric]
      rfl
    rw [run?, hstep]
    exact ih fun c hc => h c (List.mem_cons_of_mem b hc)

theorem isAuthorityByte_of_run? (h : s.run? bs = some t) : ∀ b ∈ bs, isAuthorityByte b = true := by
  induction bs generalizing s with
  | nil => exact nofun
  | cons c bs ih =>
    obtain ⟨u, hu, hrest⟩ := Option.bind_eq_some_iff.mp h
    intro b hb
    rcases List.mem_cons.mp hb with rfl | hb
    · exact (reads_of_step? hu).2
    · exact ih hrest b hb

theorem opened_of_run? (hs : s.closed = true → s.opened = true) (h : s.run? bs = some t) :
    (t.closed = true → t.opened = true) ∧ (s.opened = true → t.opened = true) := by
  induction bs generalizing s with
  | nil =>
    obtain rfl := Option.some.inj h
    exact ⟨hs, id⟩
  | cons c bs ih =>
    obtain ⟨u, hu, hrest⟩ := Option.bind_eq_some_iff.mp h
    cases (reads_of_step? hu).1 with
    | opens _ _ hopened =>
      obtain ⟨hordered, hkept⟩ := ih (fun _ => hopened) hrest
      exact ⟨hordered, fun _ => hkept hopened⟩
    | closes _ _ hopened =>
      obtain ⟨hordered, hkept⟩ := ih (fun _ => hopened) hrest
      exact ⟨hordered, fun _ => hkept hopened⟩
    | passes _ _ hopened hclosed =>
      rw [← hopened, ← hclosed] at hs
      rw [← hopened]
      exact ih hs hrest

/-- Only the closing bracket closes. -/
theorem closed_of_run? (h : s.run? bs = some t) (hnot : 93 ∉ bs) : t.closed = s.closed := by
  induction bs generalizing s with
  | nil =>
    obtain rfl := Option.some.inj h
    rfl
  | cons c bs ih =>
    obtain ⟨u, hu, hrest⟩ := Option.bind_eq_some_iff.mp h
    have hlater := ih hrest fun hmem => hnot (List.mem_cons_of_mem _ hmem)
    cases (reads_of_step? hu).1 with
    | opens _ _ _ hclosed => rw [hlater, hclosed]
    | closes hc => exact absurd (hc ▸ List.mem_cons_self) hnot
    | passes _ _ _ hclosed => rw [hlater, hclosed]

end AuthorityScan

theorem isAuthority_run {bs : Bytes} (h : isAuthority bs = true) :
    ∃ s, AuthorityScan.start.run? bs = some s ∧ s.opened = s.closed ∧ bs ≠ [] := by
  unfold isAuthority at h
  split at h
  · cases h
  · rename_i s hs
    simp only [Bool.and_eq_true, beq_iff_eq, Bool.not_eq_true', List.isEmpty_eq_false_iff] at h
    exact ⟨s, hs, h.1.1.1.1, h.1.2⟩

theorem isAuthorityByte_of_mem {a : Authority} {b : UInt8} (hb : b ∈ a.bytes) :
    isAuthorityByte b = true := by
  obtain ⟨s, hs, -⟩ := isAuthority_run a.valid
  exact AuthorityScan.isAuthorityByte_of_run? hs b hb

/-- An opened bracket is closed. -/
theorem mem_of_isAuthority {front back : Bytes} (h : isAuthority (front ++ 91 :: back) = true) :
    93 ∈ back := by
  obtain ⟨t, hrun, hbrackets, -⟩ := isAuthority_run h
  rw [AuthorityScan.run?_append] at hrun
  obtain ⟨s, hs, hrun⟩ := Option.bind_eq_some_iff.mp hrun
  obtain ⟨u, hu, hback⟩ := Option.bind_eq_some_iff.mp hrun
  obtain ⟨hordered, -⟩ := AuthorityScan.opened_of_run? (by decide) hs
  by_contra hnot
  cases (AuthorityScan.reads_of_step? hu).1 with
  | opens _ hfirst hopened hclosed =>
    have hunclosed : s.closed = false := by
      by_contra hclosed
      rw [hordered (Bool.not_eq_false _ ▸ hclosed)] at hfirst
      cases hfirst
    have hlater := AuthorityScan.closed_of_run? hback hnot
    have hkept := (AuthorityScan.opened_of_run? (fun _ => hopened) hback).2 hopened
    rw [hkept, hlater, hclosed, hunclosed] at hbrackets
    cases hbrackets
  | closes hb => cases hb
  | passes hb => exact hb rfl

namespace Uri

theorem ofParts?_eq {scheme : Option Scheme} {authority : Option Authority} {path : Bytes}
    {query : Option Bytes} {u : Uri} (h : ofParts? scheme authority path query = some u) :
    u.scheme = scheme ∧ u.authority = authority := by
  unfold ofParts? at h
  split_ifs at h
  obtain rfl := Option.some.inj h
  exact ⟨rfl, rfl⟩

theorem readPath?_eq {scheme : Option Scheme} {authority : Option Authority} {bs : Bytes} {u : Uri}
    (h : readPath? scheme authority bs = some u) : u.scheme = scheme ∧ u.authority = authority := by
  unfold readPath? at h
  split at h
  · exact ofParts?_eq h
  · exact ofParts?_eq h

/-- A text without an authority, or from the end of one on. -/
def IsTail (bs : Bytes) : Prop := ∀ b ∈ bs.head?, endsAuthority b = true

/-- A text in parts: the name of a scheme, two slashes, an authority and what ends that. -/
structure Splits (bs name : Bytes) (a : Authority) (tail : Bytes) : Prop where
  text_eq : bs = name ++ 58 :: 47 :: 47 :: (a.bytes ++ tail)
  isName : name.all Scheme.isByte = true
  short : name.length ≤ Scheme.maxLength
  isTail : IsTail tail
  fits : bs.length ≤ maxLength

theorem not_endsAuthority_of_mem {a : Authority} {b : UInt8} (hb : b ∈ a.bytes) :
    endsAuthority b = false := by
  have hplain : isAuthorityByte b = true := isAuthorityByte_of_mem hb
  grind [isAuthorityByte, endsAuthority]

/-- The name of a scheme ends at the colon. -/
theorem cut_scheme {name : Bytes} (hname : ∀ b ∈ name, Scheme.isByte b = true) (rest : Bytes) :
    (name ++ 58 :: 47 :: 47 :: rest).takeWhile Scheme.isByte = name ∧
      (name ++ 58 :: 47 :: 47 :: rest).dropWhile Scheme.isByte = 58 :: 47 :: 47 :: rest := by
  refine takeWhile_append_of_head hname fun b hb => ?_
  obtain rfl := Option.some.inj hb
  rfl

/-- An authority ends where the next part begins. -/
theorem cut_authority {inside tail : Bytes} (hinside : ∀ b ∈ inside, endsAuthority b = false)
    (htail : IsTail tail) : (inside ++ tail).takeWhile (!endsAuthority ·) = inside ∧
      (inside ++ tail).dropWhile (!endsAuthority ·) = tail := by
  refine takeWhile_append_of_head (fun b hb => ?_) fun b hb => ?_
  · rw [hinside b hb]
    rfl
  · rw [htail b hb]
    rfl

/-- A URI with a scheme has an authority; both are read where the text splits. -/
theorem parse?_of_splits {bs name tail : Bytes} {a : Authority} (h : Splits bs name a tail) :
    parse? bs = readPath? (some (Scheme.ofBytes name)) (some a) tail := by
  obtain ⟨htext, hname, hshort, htail, hfits⟩ := h
  have hbyte : ∀ b ∈ name, Scheme.isByte b = true := List.all_eq_true.mp hname
  have hstart : ∀ b ∈ bs.head?, b ≠ 42 ∧ b ≠ 47 := by
    intro b hb
    rw [htext] at hb
    cases name with
    | nil =>
      obtain rfl := Option.some.inj hb
      decide
    | cons c cs =>
      obtain rfl := Option.some.inj hb
      have hc := hbyte c List.mem_cons_self
      constructor
      · rintro rfl
        cases hc
      · rintro rfl
        cases hc
  have hstar : ¬ (bs == [42]) = true := by
    rw [beq_iff_eq]
    rintro rfl
    exact (hstart 42 rfl).1 rfl
  have hslash : ¬ (bs.head? == some 47) = true := by
    rw [beq_iff_eq]
    exact fun h => (hstart 47 h).2 rfl
  obtain ⟨hfront, hback⟩ := cut_scheme hbyte (a.bytes ++ tail)
  obtain ⟨htake, hdrop⟩ := cut_authority (fun b hb => not_endsAuthority_of_mem (a := a) hb) htail
  have ha : Authority.ofBytes? a.bytes = some a := dif_pos a.valid
  unfold parse?
  rw [if_neg (Nat.not_lt.mpr hfits), if_neg hstar, if_neg hslash]
  rw [htext, hfront, hback]
  show (if name.length > Scheme.maxLength then none
    else (Authority.ofBytes? ((a.bytes ++ tail).takeWhile (!endsAuthority ·))).bind fun authority =>
      readPath? (some (Scheme.ofBytes name)) (some authority)
        ((a.bytes ++ tail).dropWhile (!endsAuthority ·))) = _
  rw [if_neg (Nat.not_lt.mpr hshort), htake, hdrop, ha]
  rfl

/-- A text splits in one way: what stands between the slashes and the end of the authority is the
authority. -/
theorem Splits.authority_eq {bs name tail : Bytes} {a : Authority} (h : Splits bs name a tail)
    {front middle back : Bytes} (hbs : bs = front ++ 58 :: 47 :: 47 :: (middle ++ back))
    (hfront : ∀ b ∈ front, Scheme.isByte b = true)
    (hmiddle : ∀ b ∈ middle, endsAuthority b = false) (hback : IsTail back) : a.bytes = middle := by
  have htext := h.text_eq.symm.trans hbs
  have hdrop := congrArg (List.dropWhile Scheme.isByte) htext
  rw [(cut_scheme (List.all_eq_true.mp h.isName) _).2, (cut_scheme hfront _).2] at hdrop
  have hrest : a.bytes ++ tail = middle ++ back := by simpa using hdrop
  have htake := congrArg (List.takeWhile (!endsAuthority ·)) hrest
  rwa [(cut_authority (fun b hb => not_endsAuthority_of_mem hb) h.isTail).1,
    (cut_authority hmiddle hback).1] at htake

theorem splits_of_parse? {bs : Bytes} {u : Uri} {scheme : Scheme} (h : parse? bs = some u)
    (hscheme : u.scheme = some scheme) : ∃ name a tail, Splits bs name a tail ∧
      scheme = Scheme.ofBytes name ∧ readPath? (some scheme) (some a) tail = some u := by
  unfold parse? at h
  split_ifs at h with hlong hstar hpath
  · rw [(ofParts?_eq h).1] at hscheme
    cases hscheme
  · rw [(readPath?_eq h).1] at hscheme
    cases hscheme
  · dsimp only at h
    split at h
    · rename_i rest hrest
      split_ifs at h with hname
      obtain ⟨a, ha, hread⟩ := Option.bind_eq_some_iff.mp h
      obtain rfl := Option.some.inj ((readPath?_eq hread).1.symm.trans hscheme)
      have hbytes : a.bytes = rest.takeWhile (!endsAuthority ·) := by
        unfold Authority.ofBytes? at ha
        split_ifs at ha
        obtain rfl := Option.some.inj ha
        rfl
      refine ⟨bs.takeWhile Scheme.isByte, a, rest.dropWhile (!endsAuthority ·), ?_, rfl, hread⟩
      constructor
      case text_eq =>
        rw [hbytes, List.takeWhile_append_dropWhile, ← hrest, List.takeWhile_append_dropWhile]
      case isName => exact List.all_takeWhile
      case short => exact Nat.not_lt.mp hname
      case isTail =>
        intro b hb
        have hend := List.head?_dropWhile_not (!endsAuthority ·) rest
        rw [hb] at hend
        simpa using hend
      case fits => exact Nat.not_lt.mp hlong
    · obtain ⟨a, -, hread⟩ := Option.bind_eq_some_iff.mp h
      rw [(ofParts?_eq hread).1] at hscheme
      cases hscheme

end Uri

end Gateway.Http
