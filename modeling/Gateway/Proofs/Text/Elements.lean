import Gateway.Proofs.Text.Octets
import Mathlib.Data.List.DropRight

/-! Octets cut at a separator and trimmed: which pieces a text has, that texts joined by the separator
keep theirs, and that the case of letters matters neither to the cuts nor to a number. -/
namespace Gateway.Bytes

/-! ### Pieces between separators -/

theorem splitOn_cons_self (sep : UInt8) (rest : Bytes) :
    splitOn sep (sep :: rest) = [] :: splitOn sep rest :=
  if_pos rfl

theorem splitOn_cons_of_ne {sep b : UInt8} (hb : b ≠ sep) {rest piece : Bytes}
    {pieces : List Bytes} (hrest : splitOn sep rest = piece :: pieces) :
    splitOn sep (b :: rest) = (b :: piece) :: pieces :=
  (if_neg hb).trans (by rw [hrest])

theorem splitOn_ne_nil (sep : UInt8) (bs : Bytes) : splitOn sep bs ≠ [] := by
  induction bs with
  | nil => exact List.cons_ne_nil _ _
  | cons b rest ih =>
    by_cases hb : b = sep
    · rw [hb, splitOn_cons_self]
      exact List.cons_ne_nil _ _
    · obtain ⟨piece, pieces, hrest⟩ := List.exists_cons_of_ne_nil ih
      rw [splitOn_cons_of_ne hb hrest]
      exact List.cons_ne_nil _ _

theorem splitOn_of_not_mem {sep : UInt8} {bs : Bytes} (h : sep ∉ bs) : splitOn sep bs = [bs] := by
  induction bs with
  | nil => rfl
  | cons b rest ih =>
    have hb : b ≠ sep := Ne.symm (List.ne_of_not_mem_cons h)
    exact splitOn_cons_of_ne hb (ih (List.not_mem_of_not_mem_cons h))

theorem splitOn_append (sep : UInt8) (front rest : Bytes) :
    splitOn sep (front ++ sep :: rest) = splitOn sep front ++ splitOn sep rest := by
  induction front with
  | nil => exact splitOn_cons_self sep rest
  | cons b front ih =>
    rw [List.cons_append]
    by_cases hb : b = sep
    · rw [hb, splitOn_cons_self, splitOn_cons_self, ih, List.cons_append]
    · obtain ⟨piece, pieces, hfront⟩ := List.exists_cons_of_ne_nil (splitOn_ne_nil sep front)
      rw [hfront, List.cons_append] at ih
      rw [splitOn_cons_of_ne hb ih, splitOn_cons_of_ne hb hfront, List.cons_append]

/-- Joined texts have the pieces of each, in order. -/
theorem splitOn_intercalate (sep : UInt8) {texts : List Bytes} (h : texts ≠ []) :
    splitOn sep ([sep].intercalate texts) = texts.flatMap (splitOn sep) := by
  induction texts with
  | nil => exact absurd rfl h
  | cons text texts ih =>
    by_cases hlast : texts = []
    · rw [hlast, List.intercalate_singleton, List.flatMap_singleton]
    · rw [List.intercalate_cons_of_ne_nil hlast, List.append_assoc, List.singleton_append,
        splitOn_append, ih hlast, List.flatMap_cons]

/-- The pieces of a text are what stands in it without a separator, between two separators or a
separator and an end. -/
theorem mem_splitOn_iff {sep : UInt8} {text piece : Bytes} :
    piece ∈ splitOn sep text ↔ sep ∉ piece ∧ ∃ before after, text = before ++ piece ++ after ∧
      (∀ b ∈ before.getLast?, b = sep) ∧ ∀ b ∈ after.head?, b = sep := by
  constructor
  · intro hpiece
    induction hlen : text.length using Nat.strongRecOn generalizing text with
    | ind n ih =>
      by_cases hsep : sep ∈ text
      · obtain ⟨first, rest, rfl, hfirst⟩ := List.eq_append_cons_of_mem hsep
        rw [splitOn_append, splitOn_of_not_mem hfirst, List.singleton_append] at hpiece
        rcases List.mem_cons.mp hpiece with rfl | hrest
        · exact ⟨hfirst, [], sep :: rest, rfl, nofun, fun b hb => (Option.some.inj hb).symm⟩
        · have hless : rest.length < n := by
            rw [← hlen, List.length_append, List.length_cons]
            omega
          obtain ⟨hnot, before, after, rfl, hbefore, hafter⟩ := ih rest.length hless hrest rfl
          refine ⟨hnot, first ++ sep :: before, after, by simp, fun b hb => ?_, hafter⟩
          rw [List.getLast?_append, List.getLast?_cons, Option.some_or] at hb
          obtain rfl := Option.some.inj hb
          cases hlast : before.getLast? with
          | none => rfl
          | some c => exact hbefore c hlast
      · rw [splitOn_of_not_mem hsep] at hpiece
        obtain rfl := List.mem_singleton.mp hpiece
        exact ⟨hsep, [], [], (List.append_nil _).symm, nofun, nofun⟩
  · rintro ⟨hnot, before, after, rfl, hbefore, hafter⟩
    have hfront : piece ∈ splitOn sep (piece ++ after) := by
      cases after with
      | nil => rw [List.append_nil, splitOn_of_not_mem hnot]; exact List.mem_singleton_self piece
      | cons b after =>
        obtain rfl := hafter b rfl
        rw [splitOn_append, splitOn_of_not_mem hnot]
        exact List.mem_cons_self
    rcases List.eq_nil_or_concat' before with rfl | ⟨front, b, rfl⟩
    · exact hfront
    · obtain rfl := hbefore b (List.getLast?_concat ..)
      rw [List.append_assoc, List.append_assoc, List.singleton_append, splitOn_append]
      exact List.mem_append_right _ hfront

theorem splitFirst?_cons_self (sep : UInt8) (rest : Bytes) :
    splitFirst? sep (sep :: rest) = some ([], rest) :=
  if_pos rfl

theorem splitFirst?_cons_of_ne {sep b : UInt8} (hb : b ≠ sep) (rest : Bytes) :
    splitFirst? sep (b :: rest) =
      (splitFirst? sep rest).map fun (before, after) => (b :: before, after) :=
  if_neg hb

theorem splitFirst?_append {sep : UInt8} {before : Bytes} (h : sep ∉ before) (after : Bytes) :
    splitFirst? sep (before ++ sep :: after) = some (before, after) := by
  induction before with
  | nil => exact splitFirst?_cons_self sep after
  | cons b rest ih =>
    have hb : b ≠ sep := Ne.symm (List.ne_of_not_mem_cons h)
    rw [List.cons_append, splitFirst?_cons_of_ne hb, ih (List.not_mem_of_not_mem_cons h)]
    rfl

theorem splitFirst?_of_not_mem {sep : UInt8} {bs : Bytes} (h : sep ∉ bs) :
    splitFirst? sep bs = none := by
  induction bs with
  | nil => rfl
  | cons b rest ih =>
    have hb : b ≠ sep := Ne.symm (List.ne_of_not_mem_cons h)
    rw [splitFirst?_cons_of_ne hb, ih (List.not_mem_of_not_mem_cons h)]
    rfl

theorem splitFirst?_eq_some_iff {sep : UInt8} {bs before after : Bytes} :
    splitFirst? sep bs = some (before, after) ↔ sep ∉ before ∧ bs = before ++ sep :: after := by
  constructor
  · intro h
    by_cases hsep : sep ∈ bs
    · obtain ⟨front, rest, rfl, hfront⟩ := List.eq_append_cons_of_mem hsep
      rw [splitFirst?_append hfront] at h
      obtain ⟨rfl, rfl⟩ := Prod.mk.inj (Option.some.inj h)
      exact ⟨hfront, rfl⟩
    · rw [splitFirst?_of_not_mem hsep] at h
      cases h
  · rintro ⟨hbefore, rfl⟩
    exact splitFirst?_append hbefore after

/-! ### Trimming -/

theorem dropEndWhile_append {p : UInt8 → Bool} {inner right : Bytes}
    (hright : ∀ b ∈ right, p b = true) (hlast : ∀ b ∈ inner.getLast?, p b = false) :
    dropEndWhile p (inner ++ right) = inner := by
  have hfront : ∀ b ∈ right.reverse, p b = true := fun b hb => hright b (List.mem_reverse.mp hb)
  rw [← List.head?_reverse] at hlast
  have hreverse := (takeWhile_append_of_head hfront hlast).2
  rw [dropEndWhile, List.reverse_append, hreverse, List.reverse_reverse]

/-- What is left of a trimmed text: all that was around it is of the kind that is trimmed, and it
has nothing of that kind at its ends. -/
theorem trimWhile_eq_iff {p : UInt8 → Bool} {bs inner : Bytes} :
    trimWhile p bs = inner ↔ ∃ left right, bs = left ++ inner ++ right ∧
      (∀ b ∈ left, p b = true) ∧ (∀ b ∈ right, p b = true) ∧
      (∀ b ∈ inner.head?, p b = false) ∧ ∀ b ∈ inner.getLast?, p b = false := by
  constructor
  · rintro rfl
    have hright : trimWhile p bs ++ (bs.dropWhile p).rtakeWhile p = bs.dropWhile p :=
      List.rdropWhile_append_rtakeWhile
    refine ⟨bs.takeWhile p, (bs.dropWhile p).rtakeWhile p, ?_, fun b => List.mem_takeWhile_imp,
      fun b => List.mem_rtakeWhile_imp, fun b hb => ?_, fun b hb => ?_⟩
    · rw [List.append_assoc, hright, List.takeWhile_append_dropWhile]
    · have hhead : (bs.dropWhile p).head? = some b := by
        rw [← hright, List.head?_append, show (trimWhile p bs).head? = some b from hb]
        rfl
      have hnot := List.head?_dropWhile_not p bs
      rw [hhead] at hnot
      exact hnot
    · have hne : trimWhile p bs ≠ [] := fun hnil => by rw [hnil] at hb; cases hb
      rw [List.getLast?_eq_some_getLast hne] at hb
      obtain rfl := Option.some.inj hb
      exact Bool.eq_false_iff.mpr (List.rdropWhile_last_not p (bs.dropWhile p) hne)
  · rintro ⟨left, right, rfl, hleft, hright, hhead, hlast⟩
    cases inner with
    | nil =>
      have hnone : (left ++ [] ++ right).dropWhile p = [] := by
        rw [List.append_nil, List.dropWhile_append_of_pos hleft]
        exact List.dropWhile_eq_nil_iff.mpr hright
      rw [trimWhile, hnone]
      rfl
    | cons b rest =>
      have hhead' : ∀ c ∈ (b :: rest ++ right).head?, p c = false := hhead
      have hfront := (takeWhile_append_of_head hleft hhead').2
      rw [trimWhile, List.append_assoc, hfront]
      exact dropEndWhile_append hright hlast

theorem trimWhile_eq_self {p : UInt8 → Bool} {bs : Bytes} (h : ∀ b ∈ bs, p b = false) :
    trimWhile p bs = bs :=
  trimWhile_eq_iff.mpr ⟨[], [], (List.append_nil bs).symm, nofun, nofun,
    fun b hb => h b (List.mem_of_head? hb), fun b hb => h b (List.mem_of_getLast? hb)⟩

/-! ### Case -/

theorem lowerByte_of_lt {b : UInt8} (h : b < 65) : lowerByte b = b := by
  have hnot : isUpper b = false := by
    simp only [isUpper, Bool.and_eq_false_iff, decide_eq_false_iff_not, UInt8.not_le]
    exact .inl h
  rw [lowerByte, hnot, if_neg Bool.false_ne_true]

/-- Only letters change, and they become letters. -/
theorem lowerByte_lt_iff (b : UInt8) : lowerByte b < 65 ↔ b < 65 := by
  unfold lowerByte
  by_cases hupper : isUpper b = true
  · have hrange : 65 ≤ b ∧ b ≤ 90 := by simpa [isUpper] using hupper
    rw [if_pos hupper]
    simp only [UInt8.lt_iff_toNat_lt, UInt8.le_iff_toNat_le, UInt8.toNat_add,
      UInt8.reduceToNat] at hrange ⊢
    omega
  · rw [if_neg hupper]

theorem lowerByte_eq_iff {c : UInt8} (hc : c < 65) (b : UInt8) : lowerByte b = c ↔ b = c := by
  constructor
  · intro h
    have hb : b < 65 := (lowerByte_lt_iff b).mp (h ▸ hc)
    rwa [lowerByte_of_lt hb] at h
  · rintro rfl
    exact lowerByte_of_lt hc

/-- A test that no letter passes does not see the case of letters. -/
theorem apply_lowerByte {p : UInt8 → Bool} (hp : ∀ b, p b = true → b < 65) (b : UInt8) :
    p (lowerByte b) = p b := by
  by_cases hb : b < 65
  · rw [lowerByte_of_lt hb]
  · have hlower : ¬ lowerByte b < 65 := mt (lowerByte_lt_iff b).mp hb
    rw [Bool.eq_false_iff.mpr (mt (hp b) hb), Bool.eq_false_iff.mpr (mt (hp _) hlower)]

theorem lt_of_isDigit (b : UInt8) (h : isDigit b = true) : b < 65 := by
  have hrange : 48 ≤ b ∧ b ≤ 57 := by simpa [isDigit] using h
  exact UInt8.lt_of_le_of_lt hrange.2 (by decide)

theorem lt_of_isBlank (b : UInt8) (h : isBlank b = true) : b < 65 := by
  simp only [isBlank, Bool.or_eq_true, beq_iff_eq] at h
  rcases h with (((rfl | rfl) | rfl) | rfl) | rfl <;> decide

theorem lower_trimWhile {p : UInt8 → Bool} (hp : ∀ b, p b = true → b < 65) (bs : Bytes) :
    lower (trimWhile p bs) = trimWhile p (lower bs) := by
  have hcomp : p ∘ lowerByte = p := funext (apply_lowerByte hp)
  unfold trimWhile dropEndWhile lower
  rw [List.dropWhile_map, hcomp, ← List.map_reverse, List.dropWhile_map, hcomp, ← List.map_reverse]

theorem splitFirst?_lower {sep : UInt8} (hsep : sep < 65) (bs : Bytes) :
    splitFirst? sep (lower bs) =
      (splitFirst? sep bs).map fun (before, after) => (lower before, lower after) := by
  induction bs with
  | nil => rfl
  | cons b rest ih =>
    have hcons : lower (b :: rest) = lowerByte b :: lower rest := rfl
    rw [hcons]
    by_cases hb : b = sep
    · rw [hb, lowerByte_of_lt hsep, splitFirst?_cons_self, splitFirst?_cons_self]
      rfl
    · rw [splitFirst?_cons_of_ne hb, splitFirst?_cons_of_ne (mt (lowerByte_eq_iff hsep b).mp hb), ih,
        Option.map_map, Option.map_map]
      rfl

/-! ### Numbers -/

theorem decimal?_eq_some_iff {bs : Bytes} {n : Nat} :
    decimal? bs = some n ↔ bs ≠ [] ∧ (∀ b ∈ bs, isDigit b = true) ∧
      bs.foldl (fun n b => n * 10 + (b.toNat - 48)) 0 = n := by
  unfold decimal?
  rw [Option.ite_none_left_eq_some, Bool.or_eq_true, not_or, List.isEmpty_iff, Bool.not_eq_true',
    Bool.not_eq_false, List.all_eq_true, Option.some.injEq, and_assoc]

theorem decimal?_lower (bs : Bytes) : decimal? (lower bs) = decimal? bs := by
  by_cases hdigits : ∀ b ∈ bs, isDigit b = true
  · have hsame : ∀ b ∈ bs, lowerByte b = id b := fun b hb =>
      lowerByte_of_lt (lt_of_isDigit b (hdigits b hb))
    rw [lower, List.map_congr_left hsame, List.map_id]
  · have hnone : decimal? bs = none := Option.eq_none_iff_forall_ne_some.mpr fun n h =>
      hdigits (decimal?_eq_some_iff.mp h).2.1
    rw [hnone]
    refine Option.eq_none_iff_forall_ne_some.mpr fun n h => hdigits fun b hb => ?_
    rw [← apply_lowerByte lt_of_isDigit]
    exact (decimal?_eq_some_iff.mp h).2.1 _ (List.mem_map_of_mem hb)

theorem unsigned?_of_no_plus {bs : Bytes} (h : bs.head? ≠ some 43) (bound : Nat) :
    unsigned? bound bs = (decimal? bs).filter (· < bound) := by
  unfold unsigned?
  split
  · exact absurd rfl h
  · rfl

theorem unsigned?_lower (bound : Nat) (bs : Bytes) :
    unsigned? bound (lower bs) = unsigned? bound bs := by
  by_cases hsign : bs.head? = some 43
  · obtain ⟨rest, rfl⟩ := List.head?_eq_some_iff.mp hsign
    exact congrArg (Option.filter (· < bound)) (decimal?_lower rest)
  · have hlower : (lower bs).head? ≠ some 43 := by
      cases bs with
      | nil => exact nofun
      | cons b rest =>
        intro h
        have hplus : b = 43 := (lowerByte_eq_iff (by decide) b).mp (Option.some.inj h)
        exact hsign (congrArg some hplus)
    rw [unsigned?_of_no_plus hlower, unsigned?_of_no_plus hsign, decimal?_lower]

/-- A number is read from its digits, with or without a plus sign in front. -/
theorem unsigned?_eq_some_iff {bound n : Nat} {bs : Bytes} :
    unsigned? bound bs = some n ↔ ∃ digits, (bs = digits ∨ bs = 43 :: digits) ∧
      decimal? digits = some n ∧ n < bound := by
  have hfilter (digits : Bytes) : (decimal? digits).filter (· < bound) = some n ↔
      decimal? digits = some n ∧ n < bound := by
    rw [Option.filter_eq_some_iff, decide_eq_true_eq]
  by_cases hsign : bs.head? = some 43
  · obtain ⟨rest, rfl⟩ := List.head?_eq_some_iff.mp hsign
    -- the sign itself is no digit
    have hnone : decimal? (43 :: rest) ≠ some n := fun h =>
      absurd ((decimal?_eq_some_iff.mp h).2.1 43 List.mem_cons_self) (by decide)
    refine (hfilter rest).trans ⟨fun h => ⟨rest, .inr rfl, h⟩, ?_⟩
    rintro ⟨digits, rfl | hdigits, h⟩
    · exact absurd h.1 hnone
    · rwa [(List.cons.inj hdigits).2]
  · rw [unsigned?_of_no_plus hsign, hfilter]
    refine ⟨fun h => ⟨bs, .inl rfl, h⟩, ?_⟩
    rintro ⟨digits, rfl | rfl, h⟩
    · exact h
    · exact absurd rfl hsign

end Gateway.Bytes
