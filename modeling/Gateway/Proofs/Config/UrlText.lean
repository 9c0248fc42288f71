import Gateway.Config.Url
import Gateway.Proofs.Http.Authority
import Mathlib.Data.List.DropRight

/-! How a URL is read whose text begins with a scheme, two slashes and an authority. -/
namespace Gateway.Config.Url
open Http

theorem ok_of_bind {ε α β : Type} {x : Except ε α} {f : α → Except ε β} {b : β}
    (h : (x >>= f) = .ok b) : ∃ a, x = .ok a ∧ f a = .ok b := by
  cases x with
  | error e => cases h
  | ok a => exact ⟨a, rfl, h⟩

theorem ok_of_unless {α : Type} {c : Prop} [Decidable c] {e : UrlError} {x : Except UrlError α}
    {f : PUnit → Except UrlError α} {b : α} (h : (if c then throw e >>= f else x) = .ok b) :
    x = .ok b := by
  split at h
  · cases h
  · exact h

/-- The port that is spelled out in a text that begins with an authority. -/
def spelledPort? (cs : List Char) : Except UrlError (Option Nat) :=
  let rest := (splitHost true false (splitUser true cs).2).2
  if rest.head? = some ':' then port? rest.tail else .ok none

/-- A URL knows the port that is spelled out, unless it is the scheme's own. -/
theorem port_of_authority {scheme : String} {cs : List Char} {url : Url}
    (hhosted : isHosted scheme = true) (h : authority scheme cs = .ok url) :
    ∃ spelled, spelledPort? cs = .ok spelled ∧
      url.port = (spelled.filter fun p => some p != defaultPort? scheme).map (·.toUInt16) := by
  unfold authority at h
  rw [hhosted] at h
  dsimp only at h
  have h := ok_of_unless (ok_of_unless h)
  obtain ⟨host, -, h⟩ := ok_of_bind h
  have h := ok_of_unless h
  unfold spelledPort?
  dsimp only
  by_cases hcolon : (splitHost true false (splitUser true cs).2).2.head? = some ':'
  · rw [if_pos hcolon] at h ⊢
    obtain ⟨spelled, hport, h⟩ := ok_of_bind h
    obtain rfl := Except.ok.inj (ok_of_unless h)
    exact ⟨spelled, hport, rfl⟩
  · rw [if_neg hcolon] at h ⊢
    obtain ⟨spelled, hport, h⟩ := ok_of_bind h
    obtain rfl := Except.ok.inj (ok_of_unless h)
    exact ⟨spelled, hport, rfl⟩

section Cleaning
variable {front tail : List Char}

theorem dropWhile_append_of_not {p : Char → Bool} (hfront : ∀ c ∈ front, p c = false)
    (htail : ∀ c ∈ tail.head?, p c = false) : (front ++ tail).dropWhile p = front ++ tail := by
  rw [List.dropWhile_eq_self_iff]
  intro hl
  rw [Bool.not_eq_true]
  cases front with
  | cons c cs => exact hfront c List.mem_cons_self
  | nil =>
    cases tail with
    | cons c cs => exact htail c rfl
    | nil => cases hl

theorem rdropWhile_append {p : Char → Bool} (hfront : ∀ c ∈ front, p c = false)
    (htail : ∀ c ∈ tail.head?, p c = false) :
    ∃ tail', (front ++ tail).rdropWhile p = front ++ tail' ∧ tail'.head? = tail.head? := by
  induction tail using List.reverseRecOn with
  | nil =>
    refine ⟨[], ?_, rfl⟩
    rw [List.append_nil, List.rdropWhile_eq_self_iff]
    intro hne
    rw [hfront _ (List.getLast_mem hne)]
    exact Bool.false_ne_true
  | append_singleton cs c ih =>
    rw [← List.append_assoc]
    by_cases hc : p c = true
    · rw [List.rdropWhile_concat_pos p _ c hc]
      cases cs with
      | nil => rw [htail c rfl] at hc; cases hc
      | cons d cs => exact ih htail
    · rw [List.rdropWhile_concat_neg p _ c hc]
      exact ⟨cs ++ [c], List.append_assoc .., rfl⟩

theorem head?_filter_of_head {p : Char → Bool} {cs : List Char} (h : ∀ c ∈ cs.head?, p c = true) :
    (cs.filter p).head? = cs.head? := by
  cases cs with
  | nil => rfl
  | cons c cs => rw [List.filter_cons_of_pos (h c rfl)]; rfl

/-- What is visible at the front stays, with the character behind it. -/
theorem cleaned_append {text : String} (htext : text.toList = front ++ tail)
    (hfront : ∀ c ∈ front, 0x20 < c.toNat) (htail : ∀ c ∈ tail.head?, 0x20 < c.toNat) :
    ∃ tail', cleaned text = front ++ tail' ∧ tail'.head? = tail.head? := by
  have houter (c : Char) (hc : 0x20 < c.toNat) : decide (c.toNat ≤ 0x20) = false :=
    decide_eq_false (Nat.not_le.mpr hc)
  have hkept (c : Char) (hc : 0x20 < c.toNat) : (c ≠ '\t' && c ≠ '\n' && c ≠ '\r') = true := by
    have hne (d : Char) (hd : d.toNat ≤ 0x20) : c ≠ d := by
      rintro rfl
      exact absurd hc (Nat.not_lt.mpr hd)
    simp [hne '\t' (by decide), hne '\n' (by decide), hne '\r' (by decide)]
  obtain ⟨inner, hinner, hhead⟩ := rdropWhile_append
    (p := fun c => decide (c.toNat ≤ 0x20)) (fun c hc => houter c (hfront c hc))
    (fun c hc => houter c (htail c hc))
  have hdrop := dropWhile_append_of_not
    (p := fun c => decide (c.toNat ≤ 0x20)) (fun c hc => houter c (hfront c hc))
    (fun c hc => houter c (htail c hc))
  refine ⟨inner.filter fun c => c ≠ '\t' && c ≠ '\n' && c ≠ '\r', ?_, ?_⟩
  · unfold cleaned
    dsimp only
    rw [htext, hdrop]
    rw [List.rdropWhile] at hinner
    rw [hinner, List.filter_append, List.filter_eq_self.mpr fun c hc => hkept c (hfront c hc)]
  · rw [head?_filter_of_head, hhead]
    intro c hc
    exact hkept c (htail c (hhead ▸ hc))

end Cleaning

theorem isSchemeChar_charOf (b : UInt8) : isSchemeChar (charOf b) = Scheme.isByte b := by
  revert b
  exact forall_octet (by decide +kernel)

theorem toLower_charOf (b : UInt8) : (charOf b).toLower = charOf (Bytes.lowerByte b) := by
  revert b
  exact forall_octet (by decide +kernel)

theorem splitScheme?_charsOf {name : Bytes} (hname : name.all Scheme.isByte = true)
    (rest : List Char) {scheme : String} {after : List Char}
    (h : splitScheme? (charsOf name ++ ':' :: rest) = some (scheme, after)) :
    scheme = String.ofList (charsOf (Bytes.lower name)) ∧ after = rest := by
  have hall : ∀ c ∈ charsOf name, isSchemeChar c = true :=
    List.all_eq_true.mp ((all_charsOf isSchemeChar_charOf name).trans hname)
  have hcolon : ∀ c ∈ (':' :: rest).head?, isSchemeChar c = false := by
    intro c hc
    obtain rfl := Option.some.inj hc
    rfl
  obtain ⟨htake, hdrop⟩ := takeWhile_append_of_head hall hcolon
  have hlower : (charsOf name).map Char.toLower = charsOf (Bytes.lower name) := by
    simp [charsOf, Bytes.lower, Function.comp_def, toLower_charOf]
  unfold splitScheme? at h
  rw [hdrop, htake, hlower] at h
  split at h
  · rename_i hcolon
    obtain ⟨-, rfl⟩ := List.cons.inj hcolon
    split_ifs at h
    obtain ⟨rfl, rfl⟩ := Prod.mk.inj (Option.some.inj h)
    exact ⟨rfl, rfl⟩
  · cases h

/-- An authority is visible ASCII and holds no slash of either kind. -/
theorem authority_charOf (b : UInt8) (hb : isAuthorityByte b = true) :
    endsAuthority true (charOf b) = false ∧ isSlash (charOf b) = false ∧
      0x20 < b.toNat ∧ b.toNat < 0x80 := by
  have hall : ∀ b : UInt8, isAuthorityByte b = true → endsAuthority true (charOf b) = false ∧
      isSlash (charOf b) = false ∧ 0x20 < b.toNat ∧ b.toNat < 0x80 :=
    forall_octet (by decide +kernel)
  exact hall b hb

theorem ascii_of_isByte (b : UInt8) (hb : Scheme.isByte b = true) :
    0x20 < b.toNat ∧ b.toNat < 0x80 := by
  have hrange : 0x20 < b ∧ b < 0x80 := by
    grind [Scheme.isByte, Bytes.isAlphanumeric, Bytes.isDigit, Bytes.isAlpha]
  simpa [UInt8.lt_iff_toNat_lt] using hrange

def upToAuthority (name : Bytes) (a : Authority) : Bytes := name ++ 58 :: 47 :: 47 :: a.bytes

theorem ascii_upToAuthority {name : Bytes} (hname : name.all Scheme.isByte = true) (a : Authority) :
    ∀ b ∈ upToAuthority name a, 0x20 < b.toNat ∧ b.toNat < 0x80 := by
  intro b hb
  simp only [upToAuthority, List.mem_append, List.mem_cons] at hb
  rcases hb with hb | rfl | rfl | rfl | hb
  · exact ascii_of_isByte b (List.all_eq_true.mp hname b hb)
  · decide
  · decide
  · decide
  · exact (authority_charOf b (isAuthorityByte_of_mem hb)).2.2

theorem charsOf_upToAuthority (name : Bytes) (a : Authority) (tail : List Char) :
    charsOf (upToAuthority name a) ++ tail =
      charsOf name ++ ':' :: '/' :: '/' :: (charsOf a.bytes ++ tail) := by
  simp [upToAuthority, charsOf, charOf]

/-- What ends an authority is a character of its own. -/
theorem endsAuthority_of_tail {tail : List Char} (h : Uri.IsTail (Text.Utf8.encodeChars tail)) :
    ∀ c ∈ tail.head?, endsAuthority true c = true := by
  intro c hc
  obtain ⟨cs, rfl⟩ := List.head?_eq_some_iff.mp hc
  have hlow : ∀ b : UInt8, Uri.endsAuthority b = true →
      b.toNat < 0x80 ∧ endsAuthority true (charOf b) = true := by
    intro b hb
    simp only [Uri.endsAuthority, Bool.or_eq_true, beq_iff_eq] at hb
    rcases hb with (rfl | rfl) | rfl <;> decide
  rcases Nat.lt_or_ge c.toNat 0x80 with hascii | hhigh
  · have hb := h c.toNat.toUInt8 (by
      rw [Text.Utf8.encodeChars, List.flatMap_cons, Text.Utf8.encodeChar_of_ascii hascii]
      rfl)
    have hend := (hlow _ hb).2
    rwa [charOf, Text.Utf8.toNat_toUInt8 (by omega), Char.ofNat_toNat] at hend
  · obtain ⟨b, bs, hencode, hb⟩ := Text.Utf8.encodeChar_head hhigh
    have hend := h b (by
      rw [Text.Utf8.encodeChars, List.flatMap_cons, hencode]
      rfl)
    exact absurd (hlow b hend).1 (Nat.not_lt.mpr hb)

/-- A text that splits at an authority does so in its characters. -/
theorem text_of_splits {text : String} {name rest : Bytes} {a : Authority}
    (h : Uri.Splits (Text.Utf8.encode text) name a rest) : ∃ tail,
      text.toList = charsOf (upToAuthority name a) ++ tail ∧
        ∀ c ∈ tail.head?, endsAuthority true c = true := by
  have hsplit : Text.Utf8.encodeChars text.toList = upToAuthority name a ++ rest := by
    rw [← Text.Utf8.encode, h.text_eq]
    simp [upToAuthority]
  have hascii := ascii_upToAuthority h.isName a
  obtain ⟨tail, htext, htail⟩ :=
    Text.Utf8.encodeChars_eq_append hsplit fun b hb => (hascii b hb).2
  exact ⟨tail, htext, endsAuthority_of_tail (htail ▸ h.isTail)⟩

/-- What ends an authority is visible. -/
theorem visible_of_endsAuthority {c : Char} (h : endsAuthority true c = true) : 0x20 < c.toNat := by
  simp only [endsAuthority, Bool.true_and, Bool.or_eq_true, decide_eq_true_eq] at h
  rcases h with ((rfl | rfl) | rfl) | rfl <;> decide

theorem dropWhile_slashes (a : Authority) (tail : List Char) :
    ('/' :: '/' :: (charsOf a.bytes ++ tail)).dropWhile isSlash = charsOf a.bytes ++ tail := by
  obtain ⟨_, -, -, hne⟩ := isAuthority_run a.valid
  obtain ⟨b, bs, hbytes⟩ := List.exists_cons_of_ne_nil hne
  have hb : b ∈ a.bytes := hbytes ▸ List.mem_cons_self
  have hslash := (authority_charOf b (isAuthorityByte_of_mem hb)).2.1
  rw [List.dropWhile_cons_of_pos rfl, List.dropWhile_cons_of_pos rfl, hbytes]
  exact List.dropWhile_cons_of_neg (Bool.eq_false_iff.mp hslash)

section Reading
variable {text : String} {name : Bytes} {a : Authority} {tail : List Char} {url : Url}

/-- Nothing is taken out of the text up to the end of the authority. -/
theorem cleaned_upToAuthority (htext : text.toList = charsOf (upToAuthority name a) ++ tail)
    (hname : name.all Scheme.isByte = true)
    (htail : ∀ c ∈ tail.head?, endsAuthority true c = true) : ∃ tail', tail'.head? = tail.head? ∧
      cleaned text = charsOf name ++ ':' :: '/' :: '/' :: (charsOf a.bytes ++ tail') := by
  have hfront : ∀ c ∈ charsOf (upToAuthority name a), 0x20 < c.toNat := by
    intro c hc
    obtain ⟨b, hb, rfl⟩ := List.mem_map.mp hc
    rw [toNat_charOf]
    exact (ascii_upToAuthority hname a b hb).1
  obtain ⟨tail', hcleaned, hhead⟩ :=
    cleaned_append htext hfront fun c hc => visible_of_endsAuthority (htail c hc)
  rw [charsOf_upToAuthority] at hcleaned
  exact ⟨tail', hhead, hcleaned⟩

/-- The authority is read as it stands in the text. -/
theorem authority_of_parse (htext : text.toList = charsOf (upToAuthority name a) ++ tail)
    (hname : name.all Scheme.isByte = true) (htail : ∀ c ∈ tail.head?, endsAuthority true c = true)
    (hhosted : isHosted (String.ofList (charsOf (Bytes.lower name))) = true)
    (h : parse text = .ok url) : ∃ tail', tail'.head? = tail.head? ∧
      authority (String.ofList (charsOf (Bytes.lower name))) (charsOf a.bytes ++ tail') =
        .ok url := by
  obtain ⟨tail', hhead, hcleaned⟩ := cleaned_upToAuthority htext hname htail
  refine ⟨tail', hhead, ?_⟩
  unfold parse at h
  rw [hcleaned] at h
  split at h
  · cases h
  · rename_i scheme rest hscheme
    obtain ⟨rfl, rfl⟩ := splitScheme?_charsOf hname _ hscheme
    rw [if_neg, if_pos hhosted, dropWhile_slashes] at h
    · exact h
    · intro hfile
      rw [hfile] at hhosted
      cases hhosted

theorem scheme_of_authority {scheme : String} {cs : List Char}
    (h : authority scheme cs = .ok url) : url.scheme = scheme := by
  unfold authority at h
  dsimp only at h
  have hpassed := ok_of_unless (ok_of_unless h)
  split at hpassed
  all_goals
    obtain ⟨host, -, hhost⟩ := ok_of_bind hpassed
    have hnamed := ok_of_unless hhost
    split at hnamed
    all_goals
      obtain ⟨port, -, hport⟩ := ok_of_bind hnamed
      obtain rfl := Except.ok.inj (ok_of_unless hport)
      rfl

theorem scheme_of_file {cs : List Char} (h : file cs = .ok url) : url.scheme = "file" := by
  unfold file at h
  split at h
  · dsimp only at h
    split at h
    · obtain ⟨host, -, h⟩ := ok_of_bind h
      obtain rfl := Except.ok.inj h
      rfl
    · obtain rfl := Except.ok.inj h
      rfl
  · obtain rfl := Except.ok.inj h
    rfl

/-- The scheme is read as it stands in the text, in lower case. -/
theorem scheme_of_parse (htext : text.toList = charsOf (upToAuthority name a) ++ tail)
    (hname : name.all Scheme.isByte = true) (htail : ∀ c ∈ tail.head?, endsAuthority true c = true)
    (h : parse text = .ok url) : url.scheme = String.ofList (charsOf (Bytes.lower name)) := by
  obtain ⟨tail', -, hcleaned⟩ := cleaned_upToAuthority htext hname htail
  unfold parse at h
  rw [hcleaned] at h
  split at h
  · cases h
  · rename_i scheme rest hscheme
    obtain ⟨rfl, -⟩ := splitScheme?_charsOf hname _ hscheme
    split_ifs at h with hfile hhosted
    · rw [scheme_of_file h, hfile]
    · exact scheme_of_authority h
    · split at h
      · exact scheme_of_authority h
      · obtain rfl := Except.ok.inj h
        rfl

end Reading

/-- A name that is `http` or `https` in lower case is the name of no other scheme. -/
theorem ofBytes_ne_other {name : Bytes}
    (h : String.ofList (charsOf (Bytes.lower name)) = "http" ∨
      String.ofList (charsOf (Bytes.lower name)) = "https") (other : Bytes) :
    Scheme.other other ≠ Scheme.ofBytes name := by
  have hlower {known : Bytes} (hknown : charsOf (Bytes.lower name) = charsOf known) :
      Bytes.lower name = known :=
    List.map_injective_iff.mpr (fun _ _ => charOf_inj.mp) hknown
  unfold Scheme.ofBytes Bytes.eqIgnoreCase
  rcases h with hhttp | hhttps
  · have hname : Bytes.lower name = .ofLatin1 "http" :=
      hlower (String.ofList_injective (hhttp.trans (by decide +kernel)))
    rw [hname, if_pos (by decide +kernel)]
    exact nofun
  · have hname : Bytes.lower name = .ofLatin1 "https" :=
      hlower (String.ofList_injective (hhttps.trans (by decide +kernel)))
    rw [hname, if_neg (by decide +kernel), if_pos (by decide +kernel)]
    exact nofun

end Gateway.Config.Url
