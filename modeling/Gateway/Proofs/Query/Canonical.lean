import Gateway.Proofs.Query.Spelling
import Mathlib.Data.List.Sort

/-! The canonical spelling of a query. It is what the query says of each name: queries with the same
values of every name have one canonical spelling, and it is read as their parameters in the order of
the names. -/
namespace Gateway.Query

variable {ps qs : List Param} {p q : Param} {name : List Char}

/-- The parameters of a query; an absent one has none. -/
def params : Option Bytes → List Param
  | none => []
  | some query => parse query

def valuesOf (name : List Char) (ps : List Param) : List (List Char) :=
  (ps.filter (·.1 = name)).map (·.2)

/-- The same, or before it by the first code point that differs, a prefix before what it begins. -/
def NotAfter (as bs : List Char) : Prop := as = bs ∨ List.Lex (fun a b => a.toNat < b.toNat) as bs

/-- The same parameters with ascending names, the values of each name in the order they had. -/
structure SortedByName (ps sorted : List Param) : Prop where
  perm : sorted.Perm ps
  ascending : sorted.Pairwise fun p q => NotAfter p.1 q.1
  stable : ∀ name, valuesOf name sorted = valuesOf name ps

/-! ### The order of names -/

theorem charsLE_cons_iff {a b : Char} {as bs : List Char} :
    charsLE (a :: as) (b :: bs) = true ↔ a.toNat < b.toNat ∨ a = b ∧ charsLE as bs = true := by
  rw [charsLE]
  split_ifs with hab
  · subst hab
    simp
  · simp [hab]

theorem charsLE_iff {as bs : List Char} : charsLE as bs = true ↔ NotAfter as bs := by
  unfold NotAfter
  induction as generalizing bs with
  | nil => cases bs <;> simp [charsLE]
  | cons a as ih =>
    cases bs with
    | nil => simp [charsLE]
    | cons b bs =>
      rw [charsLE_cons_iff, ih, List.cons_lex_cons_iff, List.cons.injEq]
      tauto

theorem charsLE_refl (as : List Char) : charsLE as as = true := charsLE_iff.mpr (.inl rfl)

theorem charsLE_trans {as bs cs : List Char} (hab : charsLE as bs = true)
    (hbc : charsLE bs cs = true) : charsLE as cs = true := by
  induction as generalizing bs cs with
  | nil => rfl
  | cons a as ih =>
    cases bs with
    | nil => cases hab
    | cons b bs =>
      cases cs with
      | nil => cases hbc
      | cons c cs =>
        rw [charsLE_cons_iff] at hab hbc ⊢
        rcases hab with hab | ⟨rfl, hab⟩
        · rcases hbc with hbc | ⟨rfl, -⟩
          · exact .inl (Nat.lt_trans hab hbc)
          · exact .inl hab
        · exact hbc.imp_right (And.imp_right (ih hab))

theorem charsLE_total (as bs : List Char) : charsLE as bs = true ∨ charsLE bs as = true := by
  induction as generalizing bs with
  | nil => exact .inl rfl
  | cons a as ih =>
    cases bs with
    | nil => exact .inr rfl
    | cons b bs =>
      rw [charsLE_cons_iff, charsLE_cons_iff]
      rcases Nat.lt_trichotomy a.toNat b.toNat with hlt | heq | hgt
      · exact .inl (.inl hlt)
      · have hab : a = b := Char.toNat_inj.mp heq
        exact (ih bs).imp (fun h => .inr ⟨hab, h⟩) (fun h => .inr ⟨hab.symm, h⟩)
      · exact .inr (.inl hgt)

theorem charsLE_antisymm {as bs : List Char} (hab : charsLE as bs = true)
    (hba : charsLE bs as = true) : as = bs := by
  induction as generalizing bs with
  | nil =>
    cases bs with
    | nil => rfl
    | cons b bs => cases hba
  | cons a as ih =>
    cases bs with
    | nil => cases hab
    | cons b bs =>
      rw [charsLE_cons_iff] at hab hba
      rcases hab with hab | ⟨rfl, hab⟩
      · rcases hba with hba | ⟨rfl, -⟩
        · exact absurd hba (Nat.lt_asymm hab)
        · exact absurd hab (Nat.lt_irrefl _)
      · rcases hba with hba | ⟨-, hba⟩
        · exact absurd hba (Nat.lt_irrefl _)
        · rw [ih hab hba]

theorem nameLE_iff : nameLE p q = true ↔ NotAfter p.1 q.1 := charsLE_iff

theorem nameLE_trans (p q r : Param) (hpq : nameLE p q = true) (hqr : nameLE q r = true) :
    nameLE p r = true := charsLE_trans hpq hqr

theorem nameLE_total (p q : Param) : (nameLE p q || nameLE q p) = true := by
  rw [Bool.or_eq_true]
  exact charsLE_total p.1 q.1

/-! ### Values by name -/

theorem valuesOf_cons (name : List Char) (p : Param) (ps : List Param) :
    valuesOf name (p :: ps) =
      if p.1 = name then p.2 :: valuesOf name ps else valuesOf name ps := by
  unfold valuesOf
  split_ifs with hp <;> simp [hp]

theorem valuesOf_append (name : List Char) (ps qs : List Param) :
    valuesOf name (ps ++ qs) = valuesOf name ps ++ valuesOf name qs := by
  unfold valuesOf
  rw [List.filter_append, List.map_append]

theorem exists_mem_of_valuesOf_ne_nil (h : valuesOf name ps ≠ []) : ∃ p ∈ ps, p.1 = name := by
  obtain ⟨value, hvalue⟩ := List.exists_mem_of_ne_nil _ h
  obtain ⟨p, hp, -⟩ := List.mem_map.mp hvalue
  exact ⟨p, (List.mem_filter.mp hp).1, of_decide_eq_true (List.mem_filter.mp hp).2⟩

/-- The first of ascending names comes before every name that has a value. -/
theorem head_le_of_valuesOf_ne_nil (hasc : (p :: ps).Pairwise fun p q => nameLE p q = true)
    (h : valuesOf name (p :: ps) ≠ []) : charsLE p.1 name = true := by
  obtain ⟨q, hq, rfl⟩ := exists_mem_of_valuesOf_ne_nil h
  rcases List.mem_cons.mp hq with rfl | hq
  · exact charsLE_refl q.1
  · exact (List.pairwise_cons.mp hasc).1 q hq

/-- Parameters with ascending names are told by the values of each name. -/
theorem eq_of_valuesOf_eq (hps : ps.Pairwise fun p q => nameLE p q = true)
    (hqs : qs.Pairwise fun p q => nameLE p q = true)
    (h : ∀ name, valuesOf name ps = valuesOf name qs) : ps = qs := by
  have hself (p : Param) (ps : List Param) : valuesOf p.1 (p :: ps) ≠ [] := by
    rw [valuesOf_cons, if_pos rfl]
    exact List.cons_ne_nil _ _
  induction ps generalizing qs with
  | nil =>
    cases qs with
    | nil => rfl
    | cons q qs => exact absurd (h q.1).symm (hself q qs)
  | cons p ps ih =>
    cases qs with
    | nil => exact absurd (h p.1) (hself p ps)
    | cons q qs =>
      have hname : p.1 = q.1 := charsLE_antisymm
        (head_le_of_valuesOf_ne_nil hps (h q.1 ▸ hself q qs))
        (head_le_of_valuesOf_ne_nil hqs (h p.1 ▸ hself p ps))
      have hvalues := h p.1
      rw [valuesOf_cons, valuesOf_cons, if_pos rfl, if_pos hname.symm] at hvalues
      obtain ⟨hvalue, hrest⟩ := List.cons.inj hvalues
      have htail : ps = qs := by
        refine ih hps.of_cons hqs.of_cons fun name => ?_
        by_cases hn : p.1 = name
        · exact hn ▸ hrest
        · have hcons := h name
          rwa [valuesOf_cons, valuesOf_cons, if_neg hn, if_neg (hname ▸ hn)] at hcons
      rw [htail, Prod.ext hname hvalue]

/-- The parameters of one name keep their order when all are sorted. -/
theorem valuesOf_mergeSort (name : List Char) (ps : List Param) :
    valuesOf name (ps.mergeSort nameLE) = valuesOf name ps := by
  have hsorted : (ps.filter (·.1 = name)).Pairwise fun p q => nameLE p q = true := by
    refine List.pairwise_of_forall_mem_list fun p hp q hq => ?_
    unfold nameLE
    rw [of_decide_eq_true (List.mem_filter.mp hp).2, of_decide_eq_true (List.mem_filter.mp hq).2]
    exact charsLE_refl name
  have hsublist : (ps.filter (·.1 = name)).Sublist ((ps.mergeSort nameLE).filter (·.1 = name)) := by
    have hkept := (List.sublist_mergeSort nameLE_trans nameLE_total hsorted
      List.filter_sublist).filter (·.1 = name)
    simpa only [List.filter_filter, Bool.and_self] using hkept
  have hlength := ((List.mergeSort_perm ps nameLE).filter (·.1 = name)).length_eq
  unfold valuesOf
  rw [hsublist.eq_of_length hlength.symm]

theorem pairwise_mergeSort (ps : List Param) :
    (ps.mergeSort nameLE).Pairwise fun p q => nameLE p q = true :=
  List.pairwise_mergeSort nameLE_trans nameLE_total ps

theorem sortedByName_mergeSort (ps : List Param) : SortedByName ps (ps.mergeSort nameLE) where
  perm := List.mergeSort_perm ps nameLE
  ascending := (pairwise_mergeSort ps).imp nameLE_iff.mp
  stable name := valuesOf_mergeSort name ps

/-! ### Canonical spellings -/

theorem canonical_eq (query : Option Bytes) :
    canonical query = write ((params query).mergeSort nameLE) := by
  cases query with
  | none => simp [canonical, params, write]
  | some q => rfl

theorem parse_canonical (query : Option Bytes) :
    parse (canonical query) = (params query).mergeSort nameLE := by
  rw [canonical_eq, parse_write]

/-- Queries have one canonical spelling exactly when they have the same values of every name. -/
theorem canonical_eq_iff {query other : Option Bytes} :
    canonical query = canonical other ↔
      ∀ name, valuesOf name (params query) = valuesOf name (params other) := by
  constructor
  · intro h name
    have hread := congrArg parse h
    rw [parse_canonical, parse_canonical] at hread
    rw [← valuesOf_mergeSort, hread, valuesOf_mergeSort]
  · intro h
    have hsame : (params query).mergeSort nameLE = (params other).mergeSort nameLE := by
      refine eq_of_valuesOf_eq (pairwise_mergeSort _) (pairwise_mergeSort _) fun name => ?_
      rw [valuesOf_mergeSort, valuesOf_mergeSort, h]
    rw [canonical_eq, canonical_eq, hsame]

theorem canonical_canonical (query : Option Bytes) :
    canonical (some (canonical query)) = canonical query := by
  rw [canonical_eq_iff]
  intro name
  rw [params, parse_canonical, valuesOf_mergeSort]

/-! ### Queries part by part -/

def hasName (name : List Char) (part : Bytes) : Bool := (parse part).any (·.1 = name)

def Respells (x y : Bytes) : Prop := ∃ octets, SpellsParam x octets ∧ SpellsParam y octets

theorem valuesOf_eq_nil {part : Bytes} (h : hasName name part = false) :
    valuesOf name (parse part) = [] := by
  by_contra hne
  obtain ⟨p, hp, hname⟩ := exists_mem_of_valuesOf_ne_nil hne
  exact Bool.eq_false_iff.mp h (List.any_eq_true.mpr ⟨p, hp, decide_eq_true hname⟩)

/-- The values of a name come from the parts that have it. -/
theorem valuesOf_joined (name : List Char) (parts : List Bytes) :
    valuesOf name (parse (joined parts)) =
      (parts.filter (hasName name)).flatMap fun part => valuesOf name (parse part) := by
  rw [parse_joined]
  induction parts with
  | nil => rfl
  | cons part parts ih =>
    rw [List.flatMap_cons, valuesOf_append, ih]
    cases hpart : hasName name part with
    | true => rw [List.filter_cons_of_pos hpart, List.flatMap_cons]
    | false =>
      rw [List.filter_cons_of_neg (Bool.eq_false_iff.mp hpart), valuesOf_eq_nil hpart,
        List.nil_append]

theorem canonical_reordered {parts reordered : List Bytes}
    (h : ∀ name, parts.filter (hasName name) = reordered.filter (hasName name)) :
    canonical (some (joined parts)) = canonical (some (joined reordered)) := by
  rw [canonical_eq_iff]
  intro name
  rw [params, params, valuesOf_joined, valuesOf_joined, h]

theorem canonical_empty_part (before after : List Bytes) :
    canonical (some (joined (before ++ [] :: after))) =
      canonical (some (joined (before ++ after))) := by
  refine canonical_reordered fun name => ?_
  have hempty : ¬ hasName name [] = true := Bool.false_ne_true
  rw [List.filter_append, List.filter_append, List.filter_cons_of_neg hempty]

theorem parse_of_respells {x y : Bytes} (h : Respells x y) : parse x = parse y := by
  obtain ⟨octets, hx, hy⟩ := h
  rw [parse_eq, parse_eq, octetPairs_of_spellsParam hx, octetPairs_of_spellsParam hy]

theorem canonical_respelled {parts respelled : List Bytes}
    (h : List.Forall₂ Respells parts respelled) :
    canonical (some (joined parts)) = canonical (some (joined respelled)) := by
  have hread : parse (joined parts) = parse (joined respelled) := by
    rw [parse_joined, parse_joined]
    induction h with
    | nil => rfl
    | cons hxy _ ih => rw [List.flatMap_cons, List.flatMap_cons, parse_of_respells hxy, ih]
  rw [canonical_eq, canonical_eq, params, params, hread]

/-- Of two exchanged values of one name the earlier one tells the queries apart. -/
theorem canonical_exchanged {x y : Bytes} {v w : List Char} (hx : parse x = [(name, v)])
    (hy : parse y = [(name, w)]) (hne : v ≠ w) (before between after : List Bytes) :
    canonical (some (joined (before ++ x :: (between ++ y :: after)))) ≠
      canonical (some (joined (before ++ y :: (between ++ x :: after)))) := by
  intro h
  have hvalues := canonical_eq_iff.mp h name
  have hone (value : List Char) : valuesOf name [(name, value)] = [value] := by
    rw [valuesOf_cons, if_pos rfl]
    rfl
  simp only [params, parse_joined, List.flatMap_append, List.flatMap_cons, valuesOf_append,
    List.append_cancel_left_eq] at hvalues
  rw [hx, hy, hone, hone] at hvalues
  exact hne (List.cons.inj hvalues).1

/-- The canonical spelling is a normal form of what a query says of each name: it is the same for
two queries exactly when they have the same values of every name, it is read as the query's
parameters in the order of their names, and it is its own canonical spelling. So the order of
parameters with different names, empty parts and the way in which octets are spelled do not matter,
and the order of different values of one name does. -/
theorem canonical_normal_form (query other : Option Bytes) :
    (canonical query = canonical other ↔
        ∀ name, valuesOf name (params query) = valuesOf name (params other)) ∧
      SortedByName (params query) (parse (canonical query)) ∧
      canonical (some (canonical query)) = canonical query ∧
      (∀ parts reordered : List Bytes,
        (∀ name, parts.filter (hasName name) = reordered.filter (hasName name)) →
          canonical (some (joined parts)) = canonical (some (joined reordered))) ∧
      (∀ before after : List Bytes, canonical (some (joined (before ++ [] :: after))) =
        canonical (some (joined (before ++ after)))) ∧
      (∀ parts respelled : List Bytes, List.Forall₂ Respells parts respelled →
        canonical (some (joined parts)) = canonical (some (joined respelled))) ∧
      ∀ (before between after : List Bytes) (x y : Bytes) (name v w : List Char),
        parse x = [(name, v)] → parse y = [(name, w)] → v ≠ w →
          canonical (some (joined (before ++ x :: (between ++ y :: after)))) ≠
            canonical (some (joined (before ++ y :: (between ++ x :: after)))) := by
  have hsorted : SortedByName (params query) (parse (canonical query)) := by
    rw [parse_canonical]
    exact sortedByName_mergeSort (params query)
  refine ⟨canonical_eq_iff, hsorted, canonical_canonical query, ?_, canonical_empty_part, ?_, ?_⟩
  · intro parts reordered h
    exact canonical_reordered h
  · intro parts respelled h
    exact canonical_respelled h
  · intro before between after x y name v w hx hy hne
    exact canonical_exchanged hx hy hne before between after

/-- A parameter is moved between two of another name and spelled in another way; then those two are
exchanged. -/
theorem canonical_normal_form_of_three_parameters :
    let a := Bytes.ofLatin1 "a=x+y"
    let a' := Bytes.ofLatin1 "%61=x%20y"
    let one := Bytes.ofLatin1 "b=1"
    let two := Bytes.ofLatin1 "b=2"
    (∀ name, [two, a, one].filter (hasName name) = [a, two, one].filter (hasName name)) ∧
      List.Forall₂ Respells [a, two, one] [a', two, one] ∧
      canonical (some (joined [two, a, one])) = canonical (some (joined [a', two, one])) ∧
      parse one = [(['b'], ['1'])] ∧ parse two = [(['b'], ['2'])] ∧
      canonical (some (joined [two, a, one])) ≠ canonical (some (joined [one, a, two])) := by
  intro a a' one two
  have ha : parse a = [(['a'], ['x', ' ', 'y'])] := by decide +kernel
  have hone : parse one = [(['b'], ['1'])] := by decide +kernel
  have htwo : parse two = [(['b'], ['2'])] := by decide +kernel
  have hreordered : ∀ name,
      [two, a, one].filter (hasName name) = [a, two, one].filter (hasName name) := by
    intro name
    by_cases hname : name = ['a']
    · simp [hasName, ha, hone, htwo, hname]
    · have hnot : ¬ hasName name a = true := by simp [hasName, ha, Ne.symm hname]
      simp only [List.filter_cons, if_neg hnot]
  have hrespelled : Respells a a' :=
    ⟨(Bytes.ofLatin1 "a", Bytes.ofLatin1 "x y"),
      .pair (by decide) (.literal (by decide) .nil)
        (.literal (by decide) (.plus (.literal (by decide) .nil))),
      .pair (by decide) (.digits (by decide) .nil)
        (.literal (by decide) (.digits (by decide) (.literal (by decide) .nil)))⟩
  have hkept (digit : UInt8) (hdigit : digit ∉ ([37, 38, 43] : Bytes)) :
      Respells [98, 61, digit] [98, 61, digit] := by
    have hb : Spells [98] [98] := .literal (by decide) .nil
    have hpair : SpellsParam [98, 61, digit] ([98], [digit]) :=
      .pair (by decide) hb (.literal hdigit .nil)
    exact ⟨_, hpair, hpair⟩
  have hparts : List.Forall₂ Respells [a, two, one] [a', two, one] :=
    .cons hrespelled (.cons (hkept 50 (by decide)) (.cons (hkept 49 (by decide)) .nil))
  obtain ⟨-, -, -, hmoves, -, hspells, hexchanges⟩ := canonical_normal_form none none
  refine ⟨hreordered, hparts, ?_, hone, htwo, ?_⟩
  · exact (hmoves _ _ hreordered).trans (hspells _ _ hparts)
  · exact hexchanges [] [a] [] two one ['b'] ['2'] ['1'] htwo hone (by decide)

end Gateway.Query
