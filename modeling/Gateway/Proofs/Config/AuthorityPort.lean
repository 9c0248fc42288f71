import Gateway.Proofs.Config.UrlText
import Gateway.Proofs.Text.Elements

/-! Two readings of the port in an authority: a URL's, which goes through user information and host
from the left, and a URI's, which looks for the last colon. Where both accept the text, they
agree. -/
namespace Gateway

theorem charsOf_eq_append_cons {bs : Bytes} {front back : List Char} {b : UInt8}
    (h : charsOf bs = front ++ charOf b :: back) :
    ∃ fs ts, bs = fs ++ b :: ts ∧ charsOf fs = front ∧ charsOf ts = back := by
  obtain ⟨fs, rest, rfl, hfs, hrest⟩ := List.map_eq_append_iff.mp h
  obtain ⟨c, ts, rfl, hc, hts⟩ := List.map_eq_cons_iff.mp hrest
  obtain rfl := charOf_inj.mp hc
  exact ⟨fs, ts, rfl, hfs, hts⟩

/-- Where a character stands for the last time. -/
theorem split_last {α : Type} {p : α → Bool} {l : List α} {x : α} (hx : x ∈ l)
    (hp : ∀ y, p y = false ↔ y = x) :
    ∃ front, l = front ++ x :: (l.reverse.takeWhile p).reverse ∧
      x ∉ (l.reverse.takeWhile p).reverse := by
  have hwhole := List.takeWhile_append_dropWhile (p := p) (l := l.reverse)
  cases hdrop : l.reverse.dropWhile p with
  | nil =>
    have hall := List.dropWhile_eq_nil_iff.mp hdrop x (List.mem_reverse.mpr hx)
    rw [(hp x).mpr rfl] at hall
    cases hall
  | cons y ys =>
    have hy : y = x := by
      refine (hp y).mp ?_
      have hhead := List.head?_dropWhile_not p l.reverse
      rw [hdrop] at hhead
      simpa using hhead
    subst hy
    rw [hdrop] at hwhole
    refine ⟨ys.reverse, ?_, fun hmem => ?_⟩
    · have hreverse := congrArg List.reverse hwhole
      simpa using hreverse.symm
    · have htrue := List.mem_takeWhile_imp (List.mem_reverse.mp hmem)
      rw [(hp y).mpr rfl] at htrue
      cases htrue

theorem isDigit_charOf (b : UInt8) : (charOf b).isDigit = Bytes.isDigit b := by
  revert b
  exact forall_octet (by decide +kernel)

namespace Bytes

/-- Digits denote their number, unless there are none or it is too large. -/
theorem unsigned?_of_digits {bs : Bytes} (h : ∀ b ∈ bs, isDigit b = true) (bound : Nat) :
    unsigned? bound bs = if bs = [] then none
      else (some (bs.foldl (fun n b => n * 10 + (b.toNat - 48)) 0)).filter (· < bound) := by
  have hplus : bs.head? ≠ some 43 := fun h43 => absurd (h 43 (List.mem_of_head? h43)) (by decide)
  have hall : bs.all isDigit = true := List.all_eq_true.mpr h
  rw [unsigned?_of_no_plus hplus, decimal?, hall]
  cases bs with
  | nil => rfl
  | cons b bs => rfl

/-- Neither an at sign nor a bracket stands in a number. -/
theorem unsigned?_of_mem {bs : Bytes} {b : UInt8} (hb : b ∈ bs) (hdigit : isDigit b = false)
    (hplus : b ≠ 43) (bound : Nat) : unsigned? bound bs = none := by
  refine Option.eq_none_iff_forall_ne_some.mpr fun n hread => ?_
  obtain ⟨digits, hbs, hdecimal, -⟩ := unsigned?_eq_some_iff.mp hread
  have hmem : b ∈ digits := by
    rcases hbs with rfl | rfl
    · exact hb
    · exact (List.mem_cons.mp hb).resolve_left hplus
  rw [(decimal?_eq_some_iff.mp hdecimal).2.1 b hmem] at hdigit
  cases hdigit

end Bytes

namespace Http.Authority

/-- The text after the last colon is the port. -/
theorem port?_of_last {a : Authority} {front back : Bytes} (h : a.bytes = front ++ 58 :: back)
    (hback : 58 ∉ back) : a.port? = (Bytes.unsigned? 65536 back).map (·.toUInt16) := by
  have hmem : a.bytes.contains 58 = true := by simp [h]
  have htake : (a.bytes.reverse.takeWhile (· != 58)).reverse = back := by
    have hall : ∀ b ∈ back.reverse, (b != 58) = true := by
      intro b hb
      rw [bne_iff_ne]
      rintro rfl
      exact hback (List.mem_reverse.mp hb)
    rw [h, List.reverse_append, List.reverse_cons, List.append_assoc,
      List.takeWhile_append_of_pos hall]
    simp
  unfold port?
  rw [if_pos hmem, htake]

end Http.Authority

namespace Config.Url
open Http

section Reading
variable {front host tail : List Char}

/-- What follows the last at sign goes on as it is. -/
theorem splitUser_snd (hfront : ∀ c ∈ front, endsAuthority true c = false)
    (htail : ∀ c ∈ tail.head?, endsAuthority true c = true) :
    ∃ user rest, front = user ++ rest ∧ '@' ∉ rest ∧ (user = [] ∨ ∃ u, user = u ++ ['@']) ∧
      (splitUser true (front ++ tail)).2 = rest ++ tail := by
  obtain ⟨htake, hdrop⟩ := takeWhile_append_of_head (p := (!endsAuthority true ·))
    (fun c hc => by rw [hfront c hc]; rfl) (fun c hc => by rw [htail c hc]; rfl)
  unfold splitUser
  dsimp only
  rw [htake, hdrop]
  split
  · rename_i hat
    obtain ⟨u, hu, hnot⟩ := split_last (p := (· ≠ '@')) (List.contains_iff_mem.mp hat) (by simp)
    exact ⟨u ++ ['@'], _, by simpa using hu, hnot, .inr ⟨u, rfl⟩, rfl⟩
  · rename_i hat
    exact ⟨[], front, rfl, fun hmem => hat (List.contains_iff_mem.mpr hmem), .inl rfl, rfl⟩

/-- Whether what follows this character stands between brackets. -/
def bracketed (inside : Bool) (c : Char) : Bool :=
  if c = '[' then true else if c = ']' then false else inside

theorem splitHost_cons {hosted inside : Bool} {c : Char} (cs : List Char)
    (h : (c = ':' && !inside || endsAuthority hosted c) = false) :
    splitHost hosted inside (c :: cs) = (c :: (splitHost hosted (bracketed inside c) cs).1,
      (splitHost hosted (bracketed inside c) cs).2) := by
  rw [splitHost, if_neg (Bool.eq_false_iff.mp h)]
  rfl

theorem splitHost_eq (hosted inside : Bool) (cs : List Char) :
    (splitHost hosted inside cs).1 ++ (splitHost hosted inside cs).2 = cs ∧
      ∀ c ∈ (splitHost hosted inside cs).1, endsAuthority hosted c = false := by
  induction cs generalizing inside with
  | nil => exact ⟨rfl, nofun⟩
  | cons c cs ih =>
    by_cases hend : (c = ':' && !inside || endsAuthority hosted c) = true
    · rw [splitHost, if_pos hend]
      exact ⟨rfl, nofun⟩
    · rw [Bool.not_eq_true] at hend
      obtain ⟨hsplit, hhost⟩ := ih (bracketed inside c)
      rw [splitHost_cons cs hend]
      refine ⟨congrArg (c :: ·) hsplit, fun d hd => ?_⟩
      rcases List.mem_cons.mp hd with rfl | hd
      · exact (Bool.or_eq_false_iff.mp hend).2
      · exact hhost d hd

variable (tail) in
/-- A colon ends the host, or it stands between brackets. -/
theorem splitHost_colon (hfront : ∀ c ∈ front, endsAuthority true c = false) (inside : Bool) :
    (splitHost true inside (front ++ ':' :: tail)).2.head? = some ':' ∨
      (inside = true ∧ ']' ∉ front) ∨
      ∃ before after, front = before ++ '[' :: after ∧ ']' ∉ after := by
  induction front generalizing inside with
  | nil =>
    cases inside with
    | false => exact .inl rfl
    | true => exact .inr (.inl ⟨rfl, nofun⟩)
  | cons c cs ih =>
    have hc := hfront c List.mem_cons_self
    by_cases hend : (c = ':' && !inside) = true
    · refine .inl ?_
      obtain ⟨hcolon, -⟩ := Bool.and_eq_true_iff.mp hend
      rw [List.cons_append, splitHost, if_pos (by rw [hend]; rfl)]
      exact congrArg some (of_decide_eq_true hcolon)
    · have hgo : (c = ':' && !inside || endsAuthority true c) = false := by
        rw [hc, Bool.or_false]
        exact Bool.not_eq_true _ ▸ hend
      rw [List.cons_append, splitHost_cons _ hgo]
      rcases ih (fun d hd => hfront d (List.mem_cons_of_mem _ hd)) (bracketed inside c) with
        hhead | ⟨hinside, hnot⟩ | ⟨before, after, rfl, hnot⟩
      · exact .inl hhead
      · unfold bracketed at hinside
        split_ifs at hinside with hopen hclose
        · exact .inr (.inr ⟨[], cs, by rw [hopen]; rfl, hnot⟩)
        · refine .inr (.inl ⟨hinside, fun hmem => ?_⟩)
          rcases List.mem_cons.mp hmem with heq | hmem
          · exact hclose heq.symm
          · exact hnot hmem
      · exact .inr (.inr ⟨c :: before, after, rfl, hnot⟩)

def value (ds : List Char) : Nat := ds.foldl (fun n c => n * 10 + (c.toNat - 48)) 0

/-- A port is read if it consists of digits. -/
theorem port?_append (hhost : ∀ c ∈ host, endsAuthority true c = false)
    (htail : ∀ c ∈ tail.head?, endsAuthority true c = true) {port : Option Nat}
    (h : port? (host ++ tail) = .ok port) :
    (∀ c ∈ host, c.isDigit = true) ∧ value host < 65536 ∧
      port = if host = [] then none else some (value host) := by
  have hstop : ∀ c ∈ tail.head?, c.isDigit = false := by
    intro c hc
    have hend := htail c hc
    simp only [endsAuthority, Bool.true_and, Bool.or_eq_true, decide_eq_true_eq] at hend
    rcases hend with ((rfl | rfl) | rfl) | rfl <;> decide
  cases hrest : host.dropWhile Char.isDigit with
  | cons c cs =>
    have hdrop : (host ++ tail).dropWhile Char.isDigit = c :: (cs ++ tail) := by
      rw [List.dropWhile_append, hrest]
      rfl
    have hc : endsAuthority true c = false :=
      hhost c ((List.dropWhile_sublist _).subset (hrest ▸ List.mem_cons_self))
    unfold port? at h
    simp only [hdrop, hc] at h
    split at h <;> cases h
  | nil =>
    have hdigits := List.dropWhile_eq_nil_iff.mp hrest
    obtain ⟨htake, hdrop⟩ := takeWhile_append_of_head hdigits hstop
    have hresult : (if 65535 < value host then Except.error UrlError.invalidPort
        else .ok (if host.isEmpty then none else some (value host))) = .ok port := by
      rw [← h]
      unfold port?
      simp only [htake, hdrop]
      cases tail with
      | nil => rfl
      | cons c cs => simp only [htail c rfl, if_true]; rfl
    split_ifs at hresult with hlarge hempty
    · obtain rfl := Except.ok.inj hresult
      exact ⟨hdigits, by omega, (if_pos (List.isEmpty_iff.mp hempty)).symm⟩
    · obtain rfl := Except.ok.inj hresult
      exact ⟨hdigits, by omega, (if_neg (List.isEmpty_iff.not.mp hempty)).symm⟩

end Reading

theorem value_charsOf (bs : Bytes) :
    value (charsOf bs) = bs.foldl (fun n b => n * 10 + (b.toNat - 48)) 0 := by
  simp [value, charsOf, List.foldl_map, toNat_charOf]

section Agreement
variable {a : Authority} {user rest tail : List Char}

theorem plain_of_mem {c : Char} (hc : c ∈ charsOf a.bytes) : endsAuthority true c = false := by
  obtain ⟨b, hb, rfl⟩ := List.mem_map.mp hc
  exact (authority_charOf b (isAuthorityByte_of_mem hb)).1

/-- The host ends with a colon: what follows it is the port, or nothing is. -/
theorem port?_of_colon {front back : List Char} (hwhole : charsOf a.bytes = front ++ ':' :: back)
    (htail : ∀ c ∈ tail.head?, endsAuthority true c = true) {spelled : Option Nat}
    (h : port? (back ++ tail) = .ok spelled) :
    a.port? = spelled.map (·.toUInt16) ∧ ∀ n ∈ spelled, n < 65536 := by
  have hback : ∀ c ∈ back, endsAuthority true c = false := by
    intro c hc
    refine plain_of_mem (a := a) ?_
    rw [hwhole]
    exact List.mem_append_right _ (List.mem_cons_of_mem _ hc)
  obtain ⟨hdigits, hsmall, rfl⟩ := port?_append hback htail h
  obtain ⟨fs, ts, hbytes, -, rfl⟩ := charsOf_eq_append_cons (b := 58) hwhole
  have hts : ∀ b ∈ ts, Bytes.isDigit b = true := by
    intro b hb
    rw [← isDigit_charOf]
    exact hdigits _ (mem_charsOf.mpr hb)
  have hlast : 58 ∉ ts := fun hmem => nomatch hts 58 hmem
  rw [Authority.port?_of_last hbytes hlast, Bytes.unsigned?_of_digits hts, ← value_charsOf]
  by_cases hempty : ts = []
  · subst hempty
    exact ⟨rfl, nofun⟩
  · have hchars : charsOf ts ≠ [] := fun hnil => hempty (List.map_eq_nil_iff.mp hnil)
    rw [if_neg hempty, if_neg hchars, Option.filter_some_pos (by simpa using hsmall)]
    exact ⟨rfl, fun n hn => Option.some.inj hn ▸ hsmall⟩

/-- A colon behind every at sign stands behind the user information. -/
theorem behind_user {front back : List Char} (huser : user = [] ∨ ∃ u, user = u ++ ['@'])
    (hat : '@' ∉ back) (h : front ++ ':' :: back = user ++ rest) :
    ∃ before, front = user ++ before ∧ rest = before ++ ':' :: back := by
  rcases List.append_eq_append_iff.mp h with ⟨x, hx, hback⟩ | hx
  · cases x with
    | nil => exact ⟨[], by simpa using hx.symm, hback.symm⟩
    | cons c cs =>
      obtain ⟨rfl, rfl⟩ := List.cons.inj hback
      rcases huser with rfl | ⟨u, rfl⟩
      · simp at hx
      · have hlast := congrArg List.getLast? hx
        rw [List.getLast?_concat, List.getLast?_append_cons] at hlast
        rcases List.mem_cons.mp (List.mem_of_getLast? hlast.symm) with heq | hmem
        · cases heq
        · exact absurd (List.mem_append_left _ hmem) hat
  · exact hx

/-- No colon ends the host: those that there are stand in the user information or between
brackets, and what follows the last of them is no number. -/
theorem port?_of_no_colon (hwhole : charsOf a.bytes = user ++ rest)
    (huser : user = [] ∨ ∃ u, user = u ++ ['@'])
    (hcolon : (splitHost true false (rest ++ tail)).2.head? ≠ some ':') : a.port? = none := by
  by_cases hmem : 58 ∈ a.bytes
  · obtain ⟨front, hbytes, hlast⟩ := split_last (p := (· != 58)) hmem (by simp)
    generalize (a.bytes.reverse.takeWhile (· != 58)).reverse = back at hbytes hlast
    rw [Authority.port?_of_last hbytes hlast, Option.map_eq_none_iff]
    by_cases hat : 64 ∈ back
    · exact Bytes.unsigned?_of_mem hat rfl (by decide) _
    by_cases hclose : 93 ∈ back
    · exact Bytes.unsigned?_of_mem hclose rfl (by decide) _
    have hchars : charsOf front ++ ':' :: charsOf back = user ++ rest := by
      rw [← hwhole, hbytes, charsOf_append]
      rfl
    obtain ⟨before, hfront, rfl⟩ := behind_user huser (fun h => hat (mem_charsOf.mp h)) hchars
    have hplain : ∀ c ∈ before, endsAuthority true c = false := by
      intro c hc
      refine plain_of_mem (a := a) ?_
      rw [hwhole]
      simp [hc]
    rw [List.append_assoc, List.cons_append] at hcolon
    -- were the colon not between brackets, the host would end with it
    rcases splitHost_colon (charsOf back ++ tail) hplain false with
      hhead | ⟨hfalse, -⟩ | ⟨before', after, rfl, hnot⟩
    · exact absurd hhead hcolon
    · cases hfalse
    · have hopen : charsOf a.bytes =
          (user ++ before') ++ '[' :: (after ++ ':' :: charsOf back) := by
        rw [hwhole]
        simp
      obtain ⟨fs, ts, htext, -, hts⟩ := charsOf_eq_append_cons (b := 91) hopen
      have hin : ']' ∈ charsOf ts := mem_charsOf.mpr (mem_of_isAuthority (htext ▸ a.valid))
      rw [hts] at hin
      rcases List.mem_append.mp hin with hin | hin
      · exact absurd hin hnot
      · rcases List.mem_cons.mp hin with heq | hin
        · cases heq
        · exact absurd (mem_charsOf.mp hin) hclose
  · unfold Authority.port?
    rw [if_neg (by simpa using hmem)]

/-- A colon that ends a host stands before the end of the authority. -/
theorem before_tail {host after : List Char} (htail : ∀ c ∈ tail.head?, endsAuthority true c = true)
    (hhost : ∀ c ∈ host, endsAuthority true c = false) (h : host ++ ':' :: after = rest ++ tail) :
    ∃ back, rest = host ++ ':' :: back ∧ after = back ++ tail := by
  rcases List.append_eq_append_iff.mp h with ⟨x, hrest, hx⟩ | ⟨x, hx, rfl⟩
  · cases x with
    | nil =>
      rw [← show ':' :: after = tail from hx] at htail
      cases htail ':' rfl
    | cons c back =>
      obtain ⟨rfl, rfl⟩ := List.cons.inj hx
      exact ⟨back, hrest, rfl⟩
  · cases x with
    | nil => cases htail ':' rfl
    | cons c cs =>
      have hc := hhost c (by simp [hx])
      rw [htail c rfl] at hc
      cases hc

/-- The port that a URL spells out is the port of the authority. -/
theorem port?_eq_of_spelledPort? (htail : ∀ c ∈ tail.head?, endsAuthority true c = true)
    {spelled : Option Nat} (h : spelledPort? (charsOf a.bytes ++ tail) = .ok spelled) :
    a.port? = spelled.map (·.toUInt16) ∧ ∀ n ∈ spelled, n < 65536 := by
  obtain ⟨user, rest, hwhole, -, huser, hsnd⟩ := splitUser_snd (fun c hc => plain_of_mem hc) htail
  obtain ⟨hsplit, hhost⟩ := splitHost_eq true false (rest ++ tail)
  unfold spelledPort? at h
  rw [hsnd] at h
  dsimp only at h
  split at h
  · rename_i hcolon
    obtain ⟨after, hafter⟩ := List.head?_eq_some_iff.mp hcolon
    rw [hafter] at hsplit h
    obtain ⟨back, hrest, rfl⟩ := before_tail htail hhost hsplit
    have hcolon : charsOf a.bytes =
        (user ++ (splitHost true false (rest ++ tail)).1) ++ ':' :: back := by
      rw [List.append_assoc, ← hrest, hwhole]
    exact port?_of_colon hcolon htail h
  · rename_i hcolon
    obtain rfl := Except.ok.inj h
    exact ⟨port?_of_no_colon hwhole huser hcolon, nofun⟩

end Agreement

end Config.Url

end Gateway
