import Gateway.Proofs.Http.UriParts

/-! The texts that are read as a URI with a scheme. Nothing in them is forgiven: such a text is its
parts, one behind the other. -/
namespace Gateway.Http.Uri

/-- A part that may be missing, behind the octet that announces it. -/
def marked (mark : UInt8) : Option Bytes → Bytes
  | some bs => mark :: bs
  | none => []

/-- The parts of a text that begins with a scheme. -/
structure Spelling where
  name : Bytes
  authority : Authority
  path : Bytes
  query : Option Bytes
  fragment : Option Bytes

namespace Spelling

def tail (p : Spelling) : Bytes := p.path ++ (marked 63 p.query ++ marked 35 p.fragment)

def text (p : Spelling) : Bytes := p.name ++ .ofLatin1 "://" ++ p.authority.bytes ++ p.tail

/-- What the parts may hold. A fragment may be anything, for it is dropped. -/
structure Valid (p : Spelling) : Prop where
  name : p.name.all Scheme.isByte = true
  short : p.name.length ≤ Scheme.maxLength
  path : p.path.all isPathByte = true
  slash : ∀ b ∈ p.path.head?, b = 47
  query : ∀ q ∈ p.query, q.all isQueryByte = true
  fits : p.text.length ≤ maxLength

end Spelling

section Marks
variable {b : UInt8} {query : Bytes} {fragment : Option Bytes}

theorem not_mark_of_isPathByte (hb : isPathByte b = true) : (b != 63 && b != 35) = true := by
  rw [Bool.and_eq_true, bne_iff_ne, bne_iff_ne]
  grind [isPathByte]

theorem not_mark_of_isQueryByte (hb : isQueryByte b = true) : (b != 35) = true := by
  rw [bne_iff_ne]
  grind [isQueryByte]

theorem eq_mark_of_head? {mark : UInt8} {part : Option Bytes} (h : b ∈ (marked mark part).head?) :
    b = mark := by
  cases part with
  | none => cases h
  | some bs => exact (Option.some.inj h).symm

theorem mark_of_head? {query : Option Bytes}
    (h : b ∈ (marked 63 query ++ marked 35 fragment).head?) : b = 63 ∨ b = 35 := by
  cases query with
  | none => exact .inr (eq_mark_of_head? h)
  | some q => exact .inl (Option.some.inj h).symm

/-- A path that begins with a slash ends an authority, and so does what follows an empty one. -/
theorem isTail_marked {path : Bytes} (hslash : ∀ b ∈ path.head?, b = 47)
    (query fragment : Option Bytes) : IsTail (path ++ (marked 63 query ++ marked 35 fragment)) := by
  intro b hb
  cases path with
  | nil =>
    rcases mark_of_head? hb with rfl | rfl <;> rfl
  | cons c cs =>
    obtain rfl := Option.some.inj hb
    rw [hslash c rfl]
    rfl

/-- A query ends where the fragment begins. -/
theorem takeWhile_query (hquery : query.all isQueryByte = true) :
    (query ++ marked 35 fragment).takeWhile (· != 35) = query := by
  refine (takeWhile_append_of_head ?_ ?_).1
  · intro b hb
    exact not_mark_of_isQueryByte (List.all_eq_true.mp hquery b hb)
  · intro b hb
    rw [eq_mark_of_head? hb]
    rfl

/-- What is left of a text behind a part is marked as another one. -/
theorem exists_marked (mark : UInt8) (bs : Bytes) :
    ∃ part, bs = bs.takeWhile (· != mark) ++ marked mark part := by
  have hwhole := List.takeWhile_append_dropWhile (p := (· != mark)) (l := bs)
  cases hdrop : bs.dropWhile (· != mark) with
  | nil =>
    rw [hdrop] at hwhole
    exact ⟨none, hwhole.symm⟩
  | cons b rest =>
    have hb : b = mark := by
      have hhead := List.head?_dropWhile_not (· != mark) bs
      rw [hdrop] at hhead
      simpa using hhead
    rw [hdrop, hb] at hwhole
    exact ⟨some rest, hwhole.symm⟩

end Marks

section Tails
variable {scheme : Option Scheme} {authority : Option Authority} {path : Bytes}
  {query : Option Bytes} {u : Uri}

/-- Path and query are read up to what announces the next part. -/
theorem readPath?_marked (hpath : path.all isPathByte = true)
    (hquery : ∀ q ∈ query, q.all isQueryByte = true) (fragment : Option Bytes) :
    readPath? scheme authority (path ++ (marked 63 query ++ marked 35 fragment)) =
      ofParts? scheme authority path query := by
  have hfront : ∀ b ∈ path, (b != 63 && b != 35) = true := by
    intro b hb
    exact not_mark_of_isPathByte (List.all_eq_true.mp hpath b hb)
  have hmark : ∀ b ∈ (marked 63 query ++ marked 35 fragment).head?,
      (b != 63 && b != 35) = false := by
    intro b hb
    rcases mark_of_head? hb with rfl | rfl
    · rfl
    · rfl
  obtain ⟨htake, hdrop⟩ := takeWhile_append_of_head hfront hmark
  unfold readPath?
  dsimp only
  rw [htake, hdrop]
  cases query with
  | none =>
    cases fragment with
    | none => rfl
    | some bs => rfl
  | some q =>
    show ofParts? scheme authority path (some ((q ++ marked 35 fragment).takeWhile (· != 35))) = _
    rw [takeWhile_query (hquery q rfl)]

/-- What is read as path and query is these two, and a fragment. -/
theorem marked_of_readPath? {s : Bytes} (h : readPath? scheme authority s = some u) :
    ∃ fragment, s = u.rawPath ++ (marked 63 u.query ++ marked 35 fragment) := by
  have hwhole := List.takeWhile_append_dropWhile (p := fun b => b != 63 && b != 35) (l := s)
  unfold readPath? at h
  dsimp only at h
  split at h
  · rename_i rest hrest
    obtain ⟨-, -, -, -, hpath, hquery⟩ := ofParts?_eq_some_iff.mp h
    obtain ⟨fragment, hfragment⟩ := exists_marked 35 rest
    rw [hrest, hfragment, ← hpath] at hwhole
    rw [hquery]
    exact ⟨fragment, hwhole.symm⟩
  · rename_i hno
    obtain ⟨-, -, -, -, hpath, hquery⟩ := ofParts?_eq_some_iff.mp h
    rw [hquery]
    rw [← hpath] at hwhole
    cases hdrop : s.dropWhile fun b => b != 63 && b != 35 with
    | nil =>
      rw [hdrop] at hwhole
      exact ⟨none, hwhole.symm⟩
    | cons b rest =>
      have hb : b = 35 := by
        have hhead := List.head?_dropWhile_not (fun b => b != 63 && b != 35) s
        rw [hdrop] at hhead
        have hmark : b = 63 ∨ b = 35 := by simpa [or_iff_not_imp_left] using hhead
        rcases hmark with rfl | rfl
        · exact absurd hdrop (hno rest)
        · rfl
      rw [hdrop, hb] at hwhole
      exact ⟨some rest, hwhole.symm⟩

end Tails

namespace Spelling
variable {p : Spelling}

theorem splits (hp : p.Valid) : Splits p.text p.name p.authority p.tail where
  text_eq := by simp [text, Bytes.ofLatin1]
  isName := hp.name
  short := hp.short
  isTail := isTail_marked hp.slash p.query p.fragment
  fits := hp.fits

/-- A text in UTF-8 that spells a URI has its path and its query in UTF-8. -/
theorem parts_of_utf8 (hp : p.Valid) (h : (Text.Utf8.decode? p.text).isSome = true) :
    IsPath p.path ∧ ∀ q ∈ p.query, IsQuery q := by
  have hmark {b : UInt8} (hb : b = 63 ∨ b = 35) : b.toNat < 0x80 := by
    rcases hb with rfl | rfl <;> decide
  have hauthority : ∀ b ∈ 47 :: 47 :: p.authority.bytes, b.toNat < 0x80 := by
    intro b hb
    rcases List.mem_cons.mp hb with rfl | hb
    · decide
    rcases List.mem_cons.mp hb with rfl | hb
    · decide
    · have hplain : isAuthorityByte b = true := isAuthorityByte_of_mem hb
      have hascii : b < 0x80 := by grind [isAuthorityByte]
      simpa [UInt8.lt_iff_toNat_lt] using hascii
  rw [(splits hp).text_eq] at h
  have hrest := (Text.Utf8.isSome_decode?_split h (by decide)).2
  have htail : (Text.Utf8.decode? p.tail).isSome = true :=
    Text.Utf8.isSome_decode?_of_ascii_append hrest hauthority
  unfold tail at htail
  constructor
  · refine ⟨hp.path, Text.Utf8.isSome_decode?_of_append htail ?_⟩
    intro b hb
    exact hmark (mark_of_head? hb)
  · intro q hq
    rw [Option.mem_def.mp hq] at htail
    have hrest := (Text.Utf8.isSome_decode?_split htail (by decide)).2
    refine ⟨hp.query q hq, Text.Utf8.isSome_decode?_of_append hrest ?_⟩
    intro b hb
    exact hmark (.inr (eq_mark_of_head? hb))

theorem exists_parse?_of_parts (hp : p.Valid) (hpath : IsPath p.path)
    (hquery : ∀ q ∈ p.query, IsQuery q) : ∃ u, parse? p.text = some u ∧
      Consists u (some (Scheme.ofBytes p.name)) (some p.authority) p.path p.query := by
  obtain ⟨u, hu⟩ :=
    exists_ofParts? (some (Scheme.ofBytes p.name)) (some p.authority) hpath hquery
  refine ⟨u, ?_, (ofParts?_eq_some_iff.mp hu).2.2⟩
  rw [parse?_of_splits (splits hp), tail, readPath?_marked hp.path hp.query, hu]

/-- A text is read as a URI with a scheme if it spells one, and then the URI has these parts. -/
theorem exists_parse? (hp : p.Valid) (h : (Text.Utf8.decode? p.text).isSome = true) :
    ∃ u, parse? p.text = some u ∧
      Consists u (some (Scheme.ofBytes p.name)) (some p.authority) p.path p.query := by
  obtain ⟨hpath, hquery⟩ := parts_of_utf8 hp h
  exact exists_parse?_of_parts hp hpath hquery

end Spelling

/-- No other text is read as a URI with a scheme. -/
theorem exists_spelling {bs : Bytes} {u : Uri} {scheme : Scheme} (h : parse? bs = some u)
    (hscheme : u.scheme = some scheme) : ∃ p : Spelling, p.Valid ∧ bs = p.text ∧
      Consists u (some (Scheme.ofBytes p.name)) (some p.authority) p.path p.query := by
  obtain ⟨name, a, tail, hsplits, rfl, hread⟩ := splits_of_parse? h hscheme
  obtain ⟨fragment, htail⟩ := marked_of_readPath? hread
  have hparts := hasParts_of_readPath? hread
  have htext : bs = (Spelling.mk name a u.rawPath u.query fragment).text := by
    rw [hsplits.text_eq, htail]
    simp [Spelling.text, Spelling.tail, Bytes.ofLatin1]
  refine ⟨⟨name, a, u.rawPath, u.query, fragment⟩, ?_, htext, hscheme, (readPath?_eq hread).2, rfl,
    rfl⟩
  constructor
  case name => exact hsplits.isName
  case short => exact hsplits.short
  case path => exact hparts.path.bytes
  case slash =>
    intro b hb
    dsimp only at hb
    obtain ⟨cs, hcs⟩ := List.head?_eq_some_iff.mp hb
    have hends := hsplits.isTail b (by rw [htail, hcs]; rfl)
    have hpath : isPathByte b = true :=
      List.all_eq_true.mp hparts.path.bytes b (List.mem_of_mem_head? hb)
    have hmark := not_mark_of_isPathByte hpath
    simp only [Bool.and_eq_true, bne_iff_ne] at hmark
    simpa [endsAuthority, hmark] using hends
  case query =>
    intro q hq
    exact (hparts.query q hq).bytes
  case fits => exact htext ▸ hsplits.fits

/-- Only the asterisk is a path that does not begin with a slash. -/
theorem slash_iff_of_parse? {bs : Bytes} {u : Uri} (h : parse? bs = some u) :
    (∀ b ∈ u.rawPath.head?, b = 47) ↔ bs ≠ [42] := by
  cases hscheme : u.scheme with
  | some scheme =>
    obtain ⟨p, hp, rfl, -, -, hpath, -⟩ := exists_spelling h hscheme
    have hlong : 2 < p.text.length := by
      simp [Spelling.text, Bytes.ofLatin1]
      omega
    refine iff_of_true (hpath ▸ hp.slash) fun heq => ?_
    rw [heq] at hlong
    exact absurd hlong (by decide)
  | none =>
    unfold parse? at h
    split_ifs at h with hlong hstar hslash
    · obtain ⟨-, -, -, -, hpath, -⟩ := ofParts?_eq_some_iff.mp h
      obtain rfl := beq_iff_eq.mp hstar
      refine iff_of_false ?_ (not_not.mpr rfl)
      rw [hpath]
      decide
    · refine iff_of_true (fun b hb => ?_) fun heq => hstar (beq_iff_eq.mpr heq)
      obtain ⟨fragment, hwhole⟩ := marked_of_readPath? h
      obtain ⟨rest, hrest⟩ := List.head?_eq_some_iff.mp hb
      rw [hwhole, hrest, beq_iff_eq] at hslash
      exact Option.some.inj hslash
    · refine iff_of_true ?_ fun heq => hstar (beq_iff_eq.mpr heq)
      dsimp only at h
      split at h
      · split_ifs at h
        obtain ⟨a, -, hread⟩ := Option.bind_eq_some_iff.mp h
        rw [(readPath?_eq hread).1] at hscheme
        cases hscheme
      · obtain ⟨a, -, hread⟩ := Option.bind_eq_some_iff.mp h
        obtain ⟨-, -, -, -, hpath, -⟩ := ofParts?_eq_some_iff.mp hread
        rw [hpath]
        exact nofun

end Gateway.Http.Uri
