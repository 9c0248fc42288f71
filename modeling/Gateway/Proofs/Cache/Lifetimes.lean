import Gateway.Cache.Exchange
import Gateway.Proofs.Text.Elements
import Mathlib.Algebra.Order.Ring.Nat

/-! How long a response may be stored. One directive decides, whatever stands in lower-ranked ones,
and it does not matter over how many lines the directives are spread. A number of more than 64 bits
grants nothing, where a smaller one is cut to the longest lifetime. -/
namespace Gateway.Cache

open Gateway.Http

/-! ### Directives -/

/-- A token `name=value`, the name in any case, with blanks around either part. -/
def IsDirective (name token value : Bytes) : Prop :=
  ∃ before after, token = before ++ 61 :: after ∧ 61 ∉ before ∧
    Bytes.lower (Bytes.trim before) = name ∧ Bytes.trim after = value

def Lacks (tokens : List Bytes) (name : Bytes) : Prop :=
  ∀ token ∈ tokens, ∀ value, ¬ IsDirective name token value

def FirstValue (tokens : List Bytes) (name value : Bytes) : Prop :=
  ∃ before token after, tokens = before ++ token :: after ∧ IsDirective name token value ∧
    Lacks before name

/-- The value that decides on the lifetime, whether or not it is of any use. -/
inductive Decides (tokens : List Bytes) (value : Bytes) : Prop where
  | sharedMaxAge (first : FirstValue tokens (.ofLatin1 "s-max-age") value)
  | sMaxage (higher : Lacks tokens (.ofLatin1 "s-max-age"))
      (first : FirstValue tokens (.ofLatin1 "s-maxage") value)
  | maxAge (highest : Lacks tokens (.ofLatin1 "s-max-age"))
      (higher : Lacks tokens (.ofLatin1 "s-maxage"))
      (first : FirstValue tokens (.ofLatin1 "max-age") value)

/-- A number of 64 bits in decimal digits, with or without one plus sign in front. -/
def Denotes (text : Bytes) (n : Nat) : Prop :=
  ∃ digits, (text = digits ∨ text = 43 :: digits) ∧ Bytes.decimal? digits = some n ∧
    n < UInt64.size

/-- The directive that decides has a positive number as its value, in quotes or not. -/
def Grants (tokens : List Bytes) (n : Nat) : Prop :=
  0 < n ∧ ∃ value, Decides tokens value ∧ Denotes (Bytes.trimWhile (· == 34) value) n

def directive? (name token : Bytes) : Option Bytes :=
  (Bytes.splitFirst? 61 token).bind fun (key, value) =>
    if Bytes.trim key = name then some (Bytes.trim value) else none

theorem directiveValue?_eq (tokens : List Bytes) (name : Bytes) :
    directiveValue? tokens name = tokens.findSome? (directive? name) := by
  unfold directiveValue?
  congr 1
  funext token
  unfold directive?
  cases Bytes.splitFirst? 61 token <;> rfl

theorem lower_trim (bs : Bytes) : Bytes.lower (Bytes.trim bs) = Bytes.trim (Bytes.lower bs) :=
  Bytes.lower_trimWhile Bytes.lt_of_isBlank bs

theorem directive?_lower_eq_some_iff {name token value : Bytes} :
    directive? name (Bytes.lower token) = some value ↔
      ∃ raw, IsDirective name token raw ∧ Bytes.lower raw = value := by
  unfold directive?
  rw [Bytes.splitFirst?_lower (by decide), Option.bind_map]
  constructor
  · intro h
    obtain ⟨⟨before, after⟩, hsplit, hread⟩ := Option.bind_eq_some_iff.mp h
    obtain ⟨hbefore, rfl⟩ := Bytes.splitFirst?_eq_some_iff.mp hsplit
    obtain ⟨hname, hvalue⟩ := Option.ite_none_right_eq_some.mp hread
    refine ⟨Bytes.trim after, ⟨before, after, rfl, hbefore, ?_, rfl⟩, ?_⟩
    · rw [lower_trim]
      exact hname
    · rw [lower_trim]
      exact Option.some.inj hvalue
  · rintro ⟨raw, ⟨before, after, rfl, hbefore, hname, rfl⟩, rfl⟩
    refine Option.bind_eq_some_iff.mpr ⟨(before, after), Bytes.splitFirst?_append hbefore after, ?_⟩
    rw [lower_trim] at hname ⊢
    exact if_pos hname

theorem directive?_lower_eq_none_iff {name token : Bytes} :
    directive? name (Bytes.lower token) = none ↔ ∀ value, ¬ IsDirective name token value := by
  rw [Option.eq_none_iff_forall_ne_some]
  constructor
  · intro h value hvalue
    exact h (Bytes.lower value) (directive?_lower_eq_some_iff.mpr ⟨value, hvalue, rfl⟩)
  · intro h value hvalue
    obtain ⟨raw, hraw, -⟩ := directive?_lower_eq_some_iff.mp hvalue
    exact h raw hraw

theorem directiveValue?_eq_none_iff {tokens : List Bytes} {name : Bytes} :
    directiveValue? (tokens.map Bytes.lower) name = none ↔ Lacks tokens name := by
  rw [directiveValue?_eq, List.findSome?_map, List.findSome?_eq_none_iff]
  exact forall₂_congr fun token _ => directive?_lower_eq_none_iff

theorem directiveValue?_eq_some_iff {tokens : List Bytes} {name value : Bytes} :
    directiveValue? (tokens.map Bytes.lower) name = some value ↔
      ∃ raw, FirstValue tokens name raw ∧ Bytes.lower raw = value := by
  rw [directiveValue?_eq, List.findSome?_map, List.findSome?_eq_some_iff]
  constructor
  · rintro ⟨before, token, after, rfl, htoken, hbefore⟩
    obtain ⟨raw, hraw, rfl⟩ := directive?_lower_eq_some_iff.mp htoken
    exact ⟨raw, ⟨before, token, after, rfl, hraw, fun t ht =>
      directive?_lower_eq_none_iff.mp (hbefore t ht)⟩, rfl⟩
  · rintro ⟨raw, ⟨before, token, after, rfl, htoken, hbefore⟩, rfl⟩
    exact ⟨before, token, after, rfl, directive?_lower_eq_some_iff.mpr ⟨raw, htoken, rfl⟩,
      fun t ht => directive?_lower_eq_none_iff.mpr (hbefore t ht)⟩

theorem ageValue?_eq_some_iff {tokens : List Bytes} {value : Bytes} :
    ageValue? (tokens.map Bytes.lower) = some value ↔
      ∃ raw, Decides tokens raw ∧ Bytes.lower raw = value := by
  unfold ageValue?
  simp only [Option.or_eq_some_iff, directiveValue?_eq_some_iff, directiveValue?_eq_none_iff]
  constructor
  · rintro (⟨raw, first, rfl⟩ | ⟨higher, ⟨raw, first, rfl⟩ | ⟨lower, raw, first, rfl⟩⟩)
    · exact ⟨raw, .sharedMaxAge first, rfl⟩
    · exact ⟨raw, .sMaxage higher first, rfl⟩
    · exact ⟨raw, .maxAge higher lower first, rfl⟩
  · rintro ⟨raw, hdecides, rfl⟩
    cases hdecides with
    | sharedMaxAge first => exact .inl ⟨raw, first, rfl⟩
    | sMaxage higher first => exact .inr ⟨higher, .inl ⟨raw, first, rfl⟩⟩
    | maxAge highest higher first => exact .inr ⟨highest, .inr ⟨higher, raw, first, rfl⟩⟩

/-! ### Numbers -/

theorem seconds?_lower (value : Bytes) : seconds? (Bytes.lower value) = seconds? value := by
  have hquote : ∀ b : UInt8, (b == 34) = true → b < 65 := fun b hb => by
    obtain rfl := beq_iff_eq.mp hb
    decide
  unfold seconds?
  rw [← Bytes.lower_trimWhile hquote, Bytes.unsigned?_lower]

theorem seconds?_eq_some_iff {value : Bytes} {seconds : Nat} :
    seconds? value = some seconds ↔
      ∃ n, 0 < n ∧ Denotes (Bytes.trimWhile (· == 34) value) n ∧ min n maxLifetime = seconds := by
  unfold seconds?
  simp only [Option.map_eq_some_iff, Option.filter_eq_some_iff, Bytes.unsigned?_eq_some_iff,
    decide_eq_true_eq]
  constructor
  · rintro ⟨n, ⟨hdenotes, hpos⟩, rfl⟩
    exact ⟨n, hpos, hdenotes, rfl⟩
  · rintro ⟨n, hpos, hdenotes, rfl⟩
    exact ⟨n, ⟨hdenotes, hpos⟩, rfl⟩

/-! ### Lifetimes -/

/-- What a response must be for any lifetime to count. -/
structure Admits (status : Status) (headers : Headers) : Prop where
  code : 200 ≤ status.code ∧ status.code ≤ 399 ∧ status.code ≠ 304
  vary : [42] ∉ headers.tokens .vary
  isPublic : ∃ token ∈ headers.tokens .cacheControl, Bytes.lower token = .ofLatin1 "public"
  mayReuse : ∀ token ∈ headers.tokens .cacheControl,
    ¬ Bytes.ofLatin1 "no-cache" <+: Bytes.lower token

theorem storable_iff {status : Status} {headers : Headers} :
    (statusStorable status && headersStorable headers) = true ↔ Admits status headers := by
  unfold statusStorable headersStorable directives
  simp only [Bool.and_eq_true, Bool.not_eq_true', decide_eq_true_eq, ← Bool.not_eq_true,
    List.contains_iff_mem, List.any_map, List.any_eq_true, List.mem_map, not_exists, not_and,
    Function.comp_apply, List.isPrefixOf_iff_prefix]
  constructor
  · rintro ⟨hcode, ⟨hvary, hpublic⟩, hreuse⟩
    exact ⟨hcode, hvary, hpublic, hreuse⟩
  · rintro ⟨hcode, hvary, hpublic, hreuse⟩
    exact ⟨hcode, ⟨hvary, hpublic⟩, hreuse⟩

theorem lifetime?_eq_some_iff {status : Status} {headers : Headers} {seconds : Nat} :
    lifetime? status headers = some seconds ↔ Admits status headers ∧
      ∃ n, Grants (headers.tokens .cacheControl) n ∧ min n maxLifetime = seconds := by
  unfold lifetime? directives
  rw [Option.ite_none_right_eq_some, storable_iff, Option.bind_eq_some_iff]
  refine and_congr_right fun _ => ⟨?_, ?_⟩
  · rintro ⟨value, hvalue, hseconds⟩
    obtain ⟨raw, hdecides, rfl⟩ := ageValue?_eq_some_iff.mp hvalue
    rw [seconds?_lower] at hseconds
    obtain ⟨n, hpos, hdenotes, hmin⟩ := seconds?_eq_some_iff.mp hseconds
    exact ⟨n, ⟨hpos, raw, hdecides, hdenotes⟩, hmin⟩
  · rintro ⟨n, ⟨hpos, raw, hdecides, hdenotes⟩, hmin⟩
    refine ⟨Bytes.lower raw, ageValue?_eq_some_iff.mpr ⟨raw, hdecides, rfl⟩, ?_⟩
    rw [seconds?_lower]
    exact seconds?_eq_some_iff.mpr ⟨n, hpos, hdenotes, hmin⟩

theorem lifetime?_congr {g h : Headers} (hvary : g.tokens .vary = h.tokens .vary)
    (hcontrol : g.tokens .cacheControl = h.tokens .cacheControl) (status : Status) :
    lifetime? status g = lifetime? status h := by
  unfold lifetime? headersStorable directives
  rw [hvary, hcontrol]

theorem lifetime?_le {status : Status} {headers : Headers} {seconds : Nat}
    (h : lifetime? status headers = some seconds) : seconds ≤ maxLifetime := by
  obtain ⟨-, n, -, rfl⟩ := lifetime?_eq_some_iff.mp h
  exact Nat.min_le_right n maxLifetime

/-- A clock that lasts for the longest lifetime cuts no expiry short. -/
theorem expiry?_eq_map_lifetime? {latest now : Time} (h : now + 1000 * maxLifetime ≤ latest)
    (status : Status) (headers : Headers) :
    expiry? latest status headers false now =
      (lifetime? status headers).map (now + 1000 * ·) := by
  unfold expiry? captureLifetime?
  rw [if_neg Bool.false_ne_true]
  cases hlife : lifetime? status headers with
  | none => rfl
  | some seconds =>
    have hshort : 1000 * seconds ≤ 1000 * maxLifetime :=
      Nat.mul_le_mul_left 1000 (lifetime?_le hlife)
    have htold : now + 1000 * seconds ≤ latest := Nat.le_trans (Nat.add_le_add_left hshort now) h
    exact Option.filter_some_pos (decide_eq_true htold)

/-! ### Lines -/

/-- Some successive readable lines of a name become one line, with commas between them. -/
structure JoinsLines (name : HeaderName) (headers joined : Headers) : Prop where
  lines : ∃ before lines after, lines ≠ [] ∧ headers.texts name = before ++ lines ++ after ∧
    joined.texts name = before ++ [44].intercalate lines :: after
  others : ∀ n, n ≠ name → joined.values n = headers.values n

theorem JoinsLines.tokens {name : HeaderName} {headers joined : Headers}
    (h : JoinsLines name headers joined) (n : HeaderName) :
    joined.tokens n = headers.tokens n := by
  unfold Headers.tokens Headers.elements
  by_cases hn : n = name
  · subst hn
    obtain ⟨before, lines, after, hlines, htexts, hjoined⟩ := h.lines
    rw [htexts, hjoined]
    simp only [List.flatMap_append, List.flatMap_cons, Bytes.splitOn_intercalate 44 hlines,
      List.map_flatMap, List.append_assoc]
  · unfold Headers.texts
    rw [h.others n hn]

/-- The expiry is told by the first directive of the highest rank: there is one exactly when the
response is admitted, that directive's value is a positive number of 64 bits, and the clock reaches
the time, which is at most 2³¹ seconds away. Joining lines of a header changes nothing. -/
theorem expiry?_iff_granted (latest now : Time) (status : Status) (headers : Headers)
    (overflowed : Bool) :
    (∀ t, expiry? latest status headers overflowed now = some t ↔
      overflowed = false ∧ Admits status headers ∧
        ∃ n, Grants (headers.tokens .cacheControl) n ∧ t = now + 1000 * min n (2 ^ 31) ∧
          t ≤ latest) ∧
    ∀ name joined, JoinsLines name headers joined →
      expiry? latest status joined overflowed now = expiry? latest status headers overflowed now := by
  constructor
  · intro t
    unfold expiry? captureLifetime?
    rw [Option.filter_eq_some_iff, Option.map_eq_some_iff, decide_eq_true_eq]
    cases overflowed with
    | true => simp
    | false =>
      simp only [Bool.false_eq_true, if_false, true_and, lifetime?_eq_some_iff]
      constructor
      · rintro ⟨⟨seconds, ⟨hadmits, n, hgrants, rfl⟩, rfl⟩, htold⟩
        exact ⟨hadmits, n, hgrants, rfl, htold⟩
      · rintro ⟨hadmits, n, hgrants, rfl, htold⟩
        exact ⟨⟨_, ⟨hadmits, n, hgrants, rfl⟩, rfl⟩, htold⟩
  · intro name joined hjoins
    have hlife := lifetime?_congr (hjoins.tokens .vary) (hjoins.tokens .cacheControl) status
    unfold expiry? captureLifetime?
    rw [hlife]

/-- A quoted value of the first rank on one line, an unreadable line, and a value of lower rank. -/
theorem expiry?_iff_granted_of_three_lines :
    let line (s : String) (h : (Bytes.ofLatin1 s).all isValueByte = true) :=
      (HeaderName.cacheControl, HeaderValue.ofLatin1 s h)
    let headers : Headers := .ofFields [line "Public , S-MAX-AGE = \"7\"" (by decide),
      line "max-age=50, \u00e9" (by decide), line "max-age=60" (by decide)]
    let joined := headers.insert .cacheControl
      (.ofLatin1 "Public , S-MAX-AGE = \"7\",max-age=60" (by decide))
    JoinsLines .cacheControl headers joined ∧ expiry? 9000 .ok headers false 1000 = some 8000 ∧
      expiry? 9000 .ok joined false 1000 = some 8000 ∧ Admits .ok headers ∧
      expiry? 7999 .ok headers false 1000 = none := by
  intro line headers joined
  have hjoins : JoinsLines .cacheControl headers joined :=
    { lines := ⟨[], [Bytes.ofLatin1 "Public , S-MAX-AGE = \"7\"",
        Bytes.ofLatin1 "max-age=60"], [], by decide, by decide +kernel, by decide +kernel⟩
      others := fun n hn => by rw [Headers.values_insert, if_neg hn] }
  have hexpires : expiry? 9000 .ok headers false 1000 = some 8000 := by decide +kernel
  obtain ⟨hiff, hjoined⟩ := expiry?_iff_granted 9000 1000 .ok headers false
  refine ⟨hjoins, hexpires, (hjoined .cacheControl joined hjoins).trans hexpires,
    ((hiff 8000).mp hexpires).2.1, by decide +kernel⟩

/-! ### Long numbers -/

/-- `Cache-Control` is the one line `public, name=digits`, and there is no `Vary: *`. -/
structure Asks (headers : Headers) (name digits : Bytes) : Prop where
  line : (headers.values .cacheControl).map (·.bytes) =
    [.ofLatin1 "public, " ++ name ++ 61 :: digits]
  vary : [42] ∉ headers.tokens .vary

def lifetimeNames : List Bytes :=
  [.ofLatin1 "s-max-age", .ofLatin1 "s-maxage", .ofLatin1 "max-age"]

section Long
variable {headers : Headers} {name digits : Bytes} {n : Nat}

theorem seconds?_of_decimal? (hdigits : Bytes.decimal? digits = some n) (hpos : 0 < n) :
    seconds? digits = if n < UInt64.size then some (min n maxLifetime) else none := by
  obtain ⟨-, hall, -⟩ := Bytes.decimal?_eq_some_iff.mp hdigits
  have hquote : ∀ b, Bytes.isDigit b = true → (b == 34) = false := by
    intro b hb
    refine beq_eq_false_iff_ne.mpr ?_
    rintro rfl
    exact absurd hb (by decide)
  have hsign : digits.head? ≠ some 43 := fun h =>
    absurd (hall 43 (List.mem_of_head? h)) (by decide)
  unfold seconds?
  rw [Bytes.trimWhile_eq_self fun b hb => hquote b (hall b hb), Bytes.unsigned?_of_no_plus hsign,
    hdigits]
  by_cases hn : n < UInt64.size
  · simp [Option.filter, hn, hpos]
  · simp [Option.filter, hn]

/-- Between a name and its digits stands the only equals sign. -/
theorem isDirective_append {m value : Bytes} (hname : 61 ∉ name) :
    IsDirective m (name ++ 61 :: digits) value ↔
      Bytes.lower (Bytes.trim name) = m ∧ Bytes.trim digits = value := by
  constructor
  · rintro ⟨before, after, hsplit, hbefore, hm, hvalue⟩
    have hread := Bytes.splitFirst?_append hname digits
    rw [hsplit, Bytes.splitFirst?_append hbefore after] at hread
    obtain ⟨rfl, rfl⟩ := Prod.mk.inj (Option.some.inj hread)
    exact ⟨hm, hvalue⟩
  · rintro ⟨hm, hvalue⟩
    exact ⟨name, digits, rfl, hname, hm, hvalue⟩

theorem name_of_mem (hname : name ∈ lifetimeNames) :
    61 ∉ name ∧ Bytes.lower (Bytes.trim name) = name ∧ 44 ∉ name ∧
      name.all (fun b => (32 ≤ b && b < 127) || b == 9) = true ∧ name ≠ [] ∧
      ∀ b ∈ name.head?, Bytes.isBlank b = false ∧ Bytes.lowerByte b ≠ 110 := by
  revert name
  decide +kernel

theorem digits_of_decimal? (hdigits : Bytes.decimal? digits = some n) :
    digits ≠ [] ∧ Bytes.trim digits = digits ∧ 44 ∉ digits ∧
      digits.all (fun b => (32 ≤ b && b < 127) || b == 9) = true ∧
      ∀ b ∈ digits, Bytes.isBlank b = false := by
  have hoctet : ∀ b, Bytes.isDigit b = true → b ≠ 44 ∧ ((32 ≤ b && b < 127) || b == 9) = true ∧
      Bytes.isBlank b = false := forall_octet (by decide +kernel)
  obtain ⟨hne, hall, -⟩ := Bytes.decimal?_eq_some_iff.mp hdigits
  refine ⟨hne, Bytes.trimWhile_eq_self fun b hb => (hoctet b (hall b hb)).2.2,
    fun hb => (hoctet 44 (hall 44 hb)).1 rfl,
    List.all_eq_true.mpr fun b hb => (hoctet b (hall b hb)).2.1,
    fun b hb => (hoctet b (hall b hb)).2.2⟩

/-- The blank after the comma is no part of the directive. -/
theorem trim_directive (hname : name ∈ lifetimeNames) (hdigits : Bytes.decimal? digits = some n) :
    Bytes.trim (32 :: name ++ 61 :: digits) = name ++ 61 :: digits := by
  obtain ⟨-, -, -, -, hne, hhead⟩ := name_of_mem hname
  obtain ⟨-, -, -, -, hlast⟩ := digits_of_decimal? hdigits
  obtain ⟨c, rest, rfl⟩ := List.exists_cons_of_ne_nil hne
  have hspace : ∀ b ∈ ([32] : Bytes), Bytes.isBlank b = true := by simp [Bytes.isBlank]
  refine Bytes.trimWhile_eq_iff.mpr ⟨[32], [], by simp, hspace, List.forall_mem_nil _,
    fun b hb => (hhead b hb).1, fun b hb => ?_⟩
  rw [List.getLast?_append_of_ne_nil _ (List.cons_ne_nil _ _)] at hb
  rcases List.mem_cons.mp (List.mem_of_getLast? hb) with rfl | hdigit
  · rfl
  · exact hlast b hdigit

theorem Asks.texts (h : Asks headers name digits) (hname : name ∈ lifetimeNames)
    (hdigits : Bytes.decimal? digits = some n) :
    headers.texts .cacheControl = [Bytes.ofLatin1 "public" ++ 44 :: (32 :: name ++ 61 :: digits)] := by
  obtain ⟨-, -, -, hreads, -⟩ := name_of_mem hname
  obtain ⟨-, -, -, hreads', -⟩ := digits_of_decimal? hdigits
  obtain ⟨v, hvalues, hv⟩ := List.map_eq_singleton_iff.mp h.line
  have hbytes : v.bytes = Bytes.ofLatin1 "public" ++ 44 :: (32 :: name ++ 61 :: digits) := hv
  have htext : v.text? = some v.bytes := by
    refine if_pos ?_
    rw [HeaderValue.isReadable, hv, List.all_append, List.all_append, List.all_cons, hreads, hreads']
    decide
  rw [Headers.texts, hvalues, List.filterMap_cons_some htext, List.filterMap_nil, hbytes]

theorem Asks.tokens (h : Asks headers name digits) (hname : name ∈ lifetimeNames)
    (hdigits : Bytes.decimal? digits = some n) :
    headers.tokens .cacheControl = [.ofLatin1 "public", name ++ 61 :: digits] := by
  obtain ⟨-, -, hcomma, -⟩ := name_of_mem hname
  obtain ⟨-, -, hcomma', -⟩ := digits_of_decimal? hdigits
  have htoken : 44 ∉ 32 :: name ++ 61 :: digits := by simp [hcomma, hcomma']
  have hpublic : Bytes.splitOn 44 (.ofLatin1 "public") = [.ofLatin1 "public"] := by decide
  have hmark : Bytes.trim (.ofLatin1 "public") = .ofLatin1 "public" := by decide
  unfold Headers.tokens Headers.elements
  rw [h.texts hname hdigits, List.flatMap_singleton, Bytes.splitOn_append, hpublic,
    Bytes.splitOn_of_not_mem htoken, List.singleton_append, List.map_cons, List.map_singleton, hmark,
    trim_directive hname hdigits]
  simp [Bytes.ofLatin1]

theorem Asks.decides (h : Asks headers name digits) (hname : name ∈ lifetimeNames)
    (hdigits : Bytes.decimal? digits = some n) :
    Decides (headers.tokens .cacheControl) digits := by
  obtain ⟨hequals, hlower, -⟩ := name_of_mem hname
  obtain ⟨-, htrim, -⟩ := digits_of_decimal? hdigits
  have hpublic (m : Bytes) : Lacks [.ofLatin1 "public"] m := by
    rintro token htoken value ⟨before, after, rfl, -⟩
    have hmem : (61 : UInt8) ∈ Bytes.ofLatin1 "public" :=
      List.mem_singleton.mp htoken ▸ List.mem_append_right before List.mem_cons_self
    exact absurd hmem (by decide)
  have hfirst : FirstValue [.ofLatin1 "public", name ++ 61 :: digits] name digits :=
    ⟨[.ofLatin1 "public"], name ++ 61 :: digits, [], rfl,
      (isDirective_append hequals).mpr ⟨hlower, htrim⟩, hpublic name⟩
  have hlacks {m : Bytes} (hm : name ≠ m) :
      Lacks [.ofLatin1 "public", name ++ 61 :: digits] m := by
    intro token htoken value hvalue
    rcases List.mem_cons.mp htoken with htoken | htoken
    · exact hpublic m token (List.mem_singleton.mpr htoken) value hvalue
    · obtain rfl := List.mem_singleton.mp htoken
      exact hm (hlower.symm.trans ((isDirective_append hequals).mp hvalue).1)
  rw [h.tokens hname hdigits]
  rcases List.mem_cons.mp hname with rfl | hname
  · exact .sharedMaxAge hfirst
  · rcases List.mem_cons.mp hname with rfl | hname
    · exact .sMaxage (hlacks (by decide)) hfirst
    · obtain rfl := List.mem_singleton.mp hname
      exact .maxAge (hlacks (by decide)) (hlacks (by decide)) hfirst

theorem Asks.admits (h : Asks headers name digits) (hname : name ∈ lifetimeNames)
    (hdigits : Bytes.decimal? digits = some n) : Admits .ok headers := by
  have htokens := h.tokens hname hdigits
  refine ⟨by decide, h.vary, ⟨.ofLatin1 "public", ?_, by decide⟩, ?_⟩
  · rw [htokens]
    exact List.mem_cons_self
  · obtain ⟨-, -, -, -, hne, hhead⟩ := name_of_mem hname
    obtain ⟨c, rest, rfl⟩ := List.exists_cons_of_ne_nil hne
    intro token htoken hcache
    rw [htokens] at htoken
    rcases List.mem_cons.mp htoken with rfl | htoken
    · exact absurd hcache (by decide)
    · obtain rfl := List.mem_singleton.mp htoken
      exact (hhead c rfl).2 (List.cons_prefix_cons.mp hcache).1.symm

/-- A number grants its seconds, cut to the longest lifetime, unless it has more than 64 bits. -/
theorem Asks.lifetime?_eq (h : Asks headers name digits) (hname : name ∈ lifetimeNames)
    (hdigits : Bytes.decimal? digits = some n) (hpos : 0 < n) :
    lifetime? .ok headers = if n < UInt64.size then some (min n maxLifetime) else none := by
  have hvalue : ageValue? (directives headers) = some (Bytes.lower digits) :=
    ageValue?_eq_some_iff.mpr ⟨digits, h.decides hname hdigits, rfl⟩
  unfold lifetime?
  rw [if_pos (storable_iff.mpr (h.admits hname hdigits)), hvalue, Option.bind_some, seconds?_lower,
    seconds?_of_decimal? hdigits hpos]

end Long

/-- A lifetime asked for in digits is granted, cut to 2³¹ seconds, exactly when its number has 64
bits; then a longer one is never worse than a shorter one. A larger number grants none. -/
theorem lifetime?_clamped_iff {headers : Headers} {name digits : Bytes} {n : Nat}
    (hasks : Asks headers name digits) (hname : name ∈ lifetimeNames)
    (hdigits : Bytes.decimal? digits = some n) (hpos : 0 < n) :
    (lifetime? .ok headers = some (min n (2 ^ 31)) ↔ n < 2 ^ 64) ∧
      (lifetime? .ok headers = none ↔ 2 ^ 64 ≤ n) ∧
      ∀ {shorter : Headers} {other fewer : Bytes} {m : Nat}, Asks shorter other fewer →
        other ∈ lifetimeNames → Bytes.decimal? fewer = some m → 0 < m → m ≤ n → n < 2 ^ 64 →
        ∃ less more, lifetime? .ok shorter = some less ∧ lifetime? .ok headers = some more ∧
          less ≤ more := by
  have hsize : UInt64.size = 2 ^ 64 := rfl
  have hlife := hasks.lifetime?_eq hname hdigits hpos
  rw [hsize] at hlife
  refine ⟨?_, ?_, ?_⟩
  · rw [hlife]
    split_ifs with hn
    · exact iff_of_true rfl hn
    · exact iff_of_false nofun hn
  · rw [hlife, ← Nat.not_lt]
    split_ifs with hn
    · exact iff_of_false nofun (not_not_intro hn)
    · exact iff_of_true rfl hn
  · intro shorter other fewer m hfewer hother hm hpos' hle hn
    have hless := hfewer.lifetime?_eq hother hm hpos'
    rw [hsize, if_pos (Nat.lt_of_le_of_lt hle hn)] at hless
    rw [if_pos hn] at hlife
    exact ⟨_, _, hless, hlife, by omega⟩

/-- The largest number of 64 bits, with zeros in front, beside a minute. -/
theorem lifetime?_clamped_iff_of_largest :
    let name := Bytes.ofLatin1 "s-maxage"
    let digits := Bytes.ofLatin1 "0018446744073709551615"
    let headers : Headers := .ofFields [(.vary, .ofLatin1 "accept" (by decide)),
      (.cacheControl, .ofLatin1 "public, s-maxage=0018446744073709551615" (by decide))]
    let minute : Headers := .ofFields [(.cacheControl, .ofLatin1 "public, s-maxage=60" (by decide))]
    Asks headers name digits ∧ name ∈ lifetimeNames ∧
      Bytes.decimal? digits = some (2 ^ 64 - 1) ∧ lifetime? .ok headers = some (2 ^ 31) ∧
      ∃ less more, lifetime? .ok minute = some less ∧ lifetime? .ok headers = some more ∧
        less ≤ more := by
  intro name digits headers minute
  have hasks : Asks headers name digits := ⟨by decide +kernel, by decide +kernel⟩
  have hminute : Asks minute name (.ofLatin1 "60") := ⟨by decide +kernel, by decide +kernel⟩
  have hname : name ∈ lifetimeNames := by decide
  have hdigits : Bytes.decimal? digits = some (2 ^ 64 - 1) := by decide +kernel
  have hsixty : Bytes.decimal? (.ofLatin1 "60") = some 60 := by decide +kernel
  obtain ⟨hclamped, -, hmonotone⟩ := lifetime?_clamped_iff hasks hname hdigits (by decide)
  exact ⟨hasks, hname, hdigits, hclamped.mpr (by decide),
    hmonotone hminute hname hsixty (by decide) (by decide) (by decide)⟩

/-- One second more, and nothing is granted. -/
theorem not_clamped_of_long_number :
    let digits := Bytes.ofLatin1 "18446744073709551616"
    let headers : Headers := .ofFields
      [(.cacheControl, .ofLatin1 "public, max-age=18446744073709551616" (by decide))]
    (headers.values .cacheControl).map (·.bytes) =
        [Bytes.ofLatin1 "public, " ++ Bytes.ofLatin1 "max-age" ++ 61 :: digits] ∧
      Bytes.decimal? digits = some (2 ^ 64) ∧ lifetime? .ok headers = none ∧
      lifetime? .ok headers ≠ some (min (2 ^ 64) (2 ^ 31)) := by
  decide +kernel

end Gateway.Cache
