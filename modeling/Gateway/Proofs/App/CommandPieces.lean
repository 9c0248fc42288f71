import Gateway.App.Command
import Gateway.Proofs.Text.Octets

/-! Command lines as sequences of pieces: blanks, characters that stand for themselves or behind a
backslash, and what is written between quotes. A line can be split into words exactly when such a
sequence spells it; then no other one does, and the words are what the pieces between blanks add up
to. -/
namespace Gateway.App

/-- What is written for a character between double quotes. -/
inductive Grouped where
  | plain (c : Char) (hescape : c ≠ '\\') (hquote : c ≠ '"')
  | escaped (c : Char)

inductive Piece where
  /-- A blank outside quotes. -/
  | blank (c : Char) (hblank : Text.isBlank c = true)
  | plain (c : Char) (hblank : Text.isBlank c = false) (hescape : c ≠ '\\') (hsingle : c ≠ '\'')
      (hdouble : c ≠ '"')
  | escaped (c : Char)
  | single (text : List Char) (hquote : '\'' ∉ text)
  | double (text : List Grouped)

namespace Grouped

def spelled : Grouped → List Char
  | plain c _ _ => [c]
  | escaped c => ['\\', c]

def char : Grouped → Char
  | plain c _ _ | escaped c => c

end Grouped

namespace Piece

def spelled : Piece → List Char
  | blank c _ | plain c _ _ _ _ => [c]
  | escaped c => ['\\', c]
  | single text _ => '\'' :: (text ++ ['\''])
  | double text => '"' :: (text.flatMap Grouped.spelled ++ ['"'])

/-- What a piece adds to a word: all of it but a blank, the quotes around it and its backslashes. -/
def text : Piece → List Char
  | blank _ _ => []
  | plain c _ _ _ _ | escaped c => [c]
  | single text _ => text
  | double text => text.map Grouped.char

def isBlank : Piece → Bool
  | blank _ _ => true
  | _ => false

end Piece

def spelled (r : List Piece) : List Char := r.flatMap Piece.spelled

def kept (r : List Piece) : List Char := r.flatMap Piece.text

/-- What stands between the blanks, where that is anything. -/
def wordsOf (r : List Piece) : List (List Char) :=
  ((r.splitOnP Piece.isBlank).map kept).filter (!·.isEmpty)

@[simp] theorem spelled_nil : spelled [] = [] := rfl

@[simp] theorem spelled_cons (p : Piece) (r : List Piece) :
    spelled (p :: r) = p.spelled ++ spelled r := rfl

@[simp] theorem kept_nil : kept [] = [] := rfl

@[simp] theorem kept_cons (p : Piece) (r : List Piece) : kept (p :: r) = p.text ++ kept r := rfl

theorem ne_mark_of_isBlank {c : Char} (h : Text.isBlank c = true) :
    c ≠ '\\' ∧ c ≠ '\'' ∧ c ≠ '"' := by
  refine ⟨?_, ?_, ?_⟩
  all_goals
    rintro rfl
    revert h
    decide

/-! ### What the scanner makes of a piece -/

section Scan
variable (word rest : List Char)

theorem scanWords_literal {text : List Char} (h : '\'' ∉ text) :
    scanWords .single false word (text ++ '\'' :: rest) =
      scanWords .none false (word ++ text) rest := by
  induction text generalizing word with
  | nil => simp [scanWords]
  | cons c text ih =>
    rw [List.mem_cons, not_or] at h
    simp only [List.cons_append, scanWords, Bool.false_eq_true, if_false, if_neg (Ne.symm h.1)]
    rw [ih _ h.2, List.append_assoc, List.singleton_append]

theorem scanWords_grouped (text : List Grouped) :
    scanWords .double false word (text.flatMap Grouped.spelled ++ '"' :: rest) =
      scanWords .none false (word ++ text.map Grouped.char) rest := by
  induction text generalizing word with
  | nil => simp [scanWords]
  | cons g text ih =>
    have hstep : scanWords .double false word
        (g.spelled ++ (text.flatMap Grouped.spelled ++ '"' :: rest)) =
          scanWords .double false (word ++ [g.char]) (text.flatMap Grouped.spelled ++ '"' :: rest) := by
      cases g with
      | plain c hescape hquote => simp [Grouped.spelled, Grouped.char, scanWords, hescape, hquote]
      | escaped c => simp [Grouped.spelled, Grouped.char, scanWords]
    rw [List.flatMap_cons, List.append_assoc, hstep, ih, List.append_assoc, List.map_cons,
      List.singleton_append]

/-- A blank ends the word begun; every other piece adds its text to it. -/
theorem scanWords_piece (p : Piece) :
    scanWords .none false word (p.spelled ++ rest) =
      if p.isBlank then (scanWords .none false [] rest).map (consWord word)
      else scanWords .none false (word ++ p.text) rest := by
  cases p with
  | blank c hblank =>
    obtain ⟨hescape, hsingle, hdouble⟩ := ne_mark_of_isBlank hblank
    simp [Piece.spelled, Piece.isBlank, scanWords, hescape, hsingle, hdouble, hblank]
  | plain c hblank hescape hsingle hdouble =>
    simp [Piece.spelled, Piece.isBlank, Piece.text, scanWords, hescape, hsingle, hdouble, hblank]
  | escaped c => simp [Piece.spelled, Piece.isBlank, Piece.text, scanWords]
  | single text hquote =>
    have hliteral := scanWords_literal word rest hquote
    simpa [Piece.spelled, Piece.isBlank, Piece.text, scanWords] using hliteral
  | double text =>
    have hgrouped := scanWords_grouped word rest text
    simpa [Piece.spelled, Piece.isBlank, Piece.text, scanWords] using hgrouped

end Scan

/-! ### Words -/

@[simp] theorem consWord_nil (words : List (List Char)) : consWord [] words = words := rfl

theorem consWord_append (word : List Char) (words more : List (List Char)) :
    consWord word (words ++ more) = consWord word words ++ more := by
  unfold consWord
  split <;> rfl

/-- The words of a reading when a word has been begun in front of it. -/
def wordsBehind (word : List Char) (r : List Piece) : List (List Char) :=
  (((r.splitOnP Piece.isBlank).map kept).modifyHead (word ++ ·)).filter (!·.isEmpty)

theorem wordsBehind_nil (word : List Char) : wordsBehind word [] = consWord word [] := by
  cases word <;> simp [wordsBehind, consWord]

theorem wordsBehind_empty (r : List Piece) : wordsBehind [] r = wordsOf r := by
  have hid : (([] : List Char) ++ ·) = id := funext List.nil_append
  rw [wordsBehind, hid, List.modifyHead_id, id, wordsOf]

section Begun
variable {p : Piece} (word : List Char) (r : List Piece)

theorem wordsBehind_cons_blank (hp : p.isBlank = true) :
    wordsBehind word (p :: r) = consWord word (wordsOf r) := by
  rw [wordsBehind, List.splitOnP_cons_eq_if_modifyHead, if_pos hp]
  cases word <;> simp [consWord, wordsOf]

theorem wordsBehind_cons_text (hp : p.isBlank = false) :
    wordsBehind word (p :: r) = wordsBehind (word ++ p.text) r := by
  obtain ⟨first, others, hsplit⟩ := List.exists_cons_of_ne_nil (List.splitOnP_ne_nil Piece.isBlank r)
  rw [wordsBehind, wordsBehind, List.splitOnP_cons_eq_if_modifyHead, hp, hsplit]
  simp

end Begun

/-- A reading followed by anything that ends the word begun is scanned as its words and what follows. -/
theorem scanWords_spelled {rest : List Char} {tail : Except CommandError (List (List Char))}
    (hrest : ∀ word, scanWords .none false word rest = tail.map (consWord word))
    (r : List Piece) (word : List Char) :
    scanWords .none false word (spelled r ++ rest) = tail.map (wordsBehind word r ++ ·) := by
  induction r generalizing word with
  | nil =>
    rw [spelled_nil, List.nil_append, hrest, wordsBehind_nil]
    congr 1
    funext words
    exact consWord_append word [] words
  | cons p r ih =>
    rw [spelled_cons, List.append_assoc, scanWords_piece]
    cases hp : p.isBlank with
    | true =>
      rw [if_pos rfl, ih, wordsBehind_cons_blank word r hp, wordsBehind_empty]
      cases tail with
      | error e => rfl
      | ok words => exact congrArg Except.ok (consWord_append word (wordsOf r) words)
    | false => rw [if_neg Bool.false_ne_true, ih, wordsBehind_cons_text word r hp]

theorem scanWords_of_spelled (r : List Piece) :
    scanWords .none false [] (spelled r) = .ok (wordsOf r) := by
  have hend (word : List Char) :
      scanWords .none false word [] = (Except.ok []).map (consWord word) := rfl
  have hscan := scanWords_spelled hend r []
  rw [List.append_nil, wordsBehind_empty] at hscan
  exact hscan.trans (congrArg Except.ok (List.append_nil _))

/-- What has to follow for pieces to spell the line, by the quotes that the scanner stands in. -/
def Closes : Quote → List Char → Prop
  | .none, cs => ∃ r, spelled r = cs
  | .single, cs => ∃ text r, '\'' ∉ text ∧ text ++ '\'' :: spelled r = cs
  | .double, cs => ∃ (text : List Grouped) (r : List Piece),
    text.flatMap Grouped.spelled ++ '"' :: spelled r = cs

theorem Closes.cons (p : Piece) {cs : List Char} (h : Closes .none cs) :
    Closes .none (p.spelled ++ cs) := by
  obtain ⟨r, rfl⟩ := h
  exact ⟨p :: r, rfl⟩

theorem Closes.open_single {cs : List Char} (h : Closes .single cs) : Closes .none ('\'' :: cs) := by
  obtain ⟨text, r, hquote, rfl⟩ := h
  exact ⟨.single text hquote :: r, by simp [Piece.spelled]⟩

theorem Closes.open_double {cs : List Char} (h : Closes .double cs) : Closes .none ('"' :: cs) := by
  obtain ⟨text, r, rfl⟩ := h
  exact ⟨.double text :: r, by simp [Piece.spelled]⟩

theorem Closes.cons_single {c : Char} (hc : c ≠ '\'') {cs : List Char} (h : Closes .single cs) :
    Closes .single (c :: cs) := by
  obtain ⟨text, r, hquote, rfl⟩ := h
  exact ⟨c :: text, r, by simp [Ne.symm hc, hquote], rfl⟩

theorem Closes.cons_double (g : Grouped) {cs : List Char} (h : Closes .double cs) :
    Closes .double (g.spelled ++ cs) := by
  obtain ⟨text, r, rfl⟩ := h
  exact ⟨g :: text, r, by simp⟩

/-- Where the scanner succeeds, a character follows each backslash and the quotes are closed. -/
theorem closes_of_scanWords {quote : Quote} {escaped : Bool} {word cs : List Char}
    {words : List (List Char)} (h : scanWords quote escaped word cs = .ok words) :
    if escaped then ∃ c rest, cs = c :: rest ∧ Closes quote rest else Closes quote cs := by
  -- a case for each branch: at the end of the line, behind a backslash, then by what stands inside
  -- single quotes, inside double quotes and outside
  fun_induction scanWords quote escaped word cs generalizing words with
  | case1 | case3 => cases h
  | case2 escaped word hescaped =>
    rw [if_neg hescaped]
    exact ⟨[], rfl⟩
  | case4 quote word c rest ih => exact ⟨c, rest, rfl, ih h⟩
  | case5 escaped word rest hescaped ih =>
    obtain ⟨r, rfl⟩ := ih h
    rw [if_neg hescaped]
    exact ⟨[], r, List.not_mem_nil, rfl⟩
  | case6 escaped word c rest hescaped hc ih =>
    rw [if_neg hescaped]
    exact Closes.cons_single hc (ih h)
  | case7 escaped word rest hescaped ih =>
    obtain ⟨c, rest, rfl, hrest⟩ := ih h
    rw [if_neg hescaped]
    exact Closes.cons_double (.escaped c) hrest
  | case8 escaped word rest hescaped _ ih =>
    obtain ⟨r, rfl⟩ := ih h
    rw [if_neg hescaped]
    exact ⟨[], r, rfl⟩
  | case9 escaped word c rest hescaped hescape hquote ih =>
    rw [if_neg hescaped]
    exact Closes.cons_double (.plain c hescape hquote) (ih h)
  | case10 escaped word rest hescaped ih =>
    obtain ⟨c, rest, rfl, hrest⟩ := ih h
    rw [if_neg hescaped]
    exact Closes.cons (.escaped c) hrest
  | case11 escaped word rest hescaped _ ih =>
    rw [if_neg hescaped]
    exact Closes.open_single (ih h)
  | case12 escaped word rest hescaped _ _ ih =>
    rw [if_neg hescaped]
    exact Closes.open_double (ih h)
  | case13 escaped word c rest hescaped _ _ _ hblank ih =>
    obtain ⟨words, hrest⟩ : ∃ words, scanWords .none false [] rest = .ok words := by
      cases hscan : scanWords .none false [] rest with
      | error e => rw [hscan] at h; cases h
      | ok words => exact ⟨words, rfl⟩
    rw [if_neg hescaped]
    exact Closes.cons (.blank c hblank) (ih hrest)
  | case14 escaped word c rest hescaped hescape hsingle hdouble hblank ih =>
    rw [if_neg hescaped]
    exact Closes.cons (.plain c (Bool.eq_false_iff.mpr hblank) hescape hsingle hdouble) (ih h)

/-- A line can be split into words when it has a reading, and they are the words of the reading. -/
theorem scanWords_eq_ok_iff {cs : List Char} {words : List (List Char)} :
    scanWords .none false [] cs = .ok words ↔ ∃ r, spelled r = cs ∧ words = wordsOf r := by
  constructor
  · intro h
    obtain ⟨r, rfl⟩ : ∃ r, spelled r = cs := closes_of_scanWords h
    exact ⟨r, rfl, Except.ok.inj (h.symm.trans (scanWords_of_spelled r))⟩
  · rintro ⟨r, rfl, rfl⟩
    exact scanWords_of_spelled r

/-! ### A line has one reading -/

theorem Grouped.append_inj {text more : List Grouped} {xs ys : List Char}
    (h : text.flatMap Grouped.spelled ++ '"' :: xs = more.flatMap Grouped.spelled ++ '"' :: ys) :
    text = more ∧ xs = ys := by
  induction text generalizing more with
  | nil =>
    cases more with
    | nil => exact ⟨rfl, (List.cons.inj h).2⟩
    | cons g more => cases g <;> grind [Grouped.spelled]
  | cons g text ih =>
    cases more with
    | nil => cases g <;> grind [Grouped.spelled]
    | cons g' more =>
      rw [List.flatMap_cons, List.flatMap_cons, List.append_assoc, List.append_assoc] at h
      obtain ⟨rfl, hrest⟩ : g = g' ∧ text.flatMap Grouped.spelled ++ '"' :: xs =
          more.flatMap Grouped.spelled ++ '"' :: ys := by
        cases g <;> cases g' <;> grind [Grouped.spelled]
      obtain ⟨rfl, hend⟩ := ih hrest
      exact ⟨rfl, hend⟩

theorem literal_inj {text more xs ys : List Char} (htext : '\'' ∉ text) (hmore : '\'' ∉ more)
    (h : text ++ '\'' :: xs = more ++ '\'' :: ys) : text = more ∧ xs = ys := by
  have hcut {front tail : List Char} (hfront : '\'' ∉ front) :
      (front ++ '\'' :: tail).takeWhile (· != '\'') = front := by
    refine (takeWhile_append_of_head (fun c hc => ?_) (by simp)).1
    rw [bne_iff_ne]
    rintro rfl
    exact hfront hc
  obtain rfl : text = more := (hcut htext).symm.trans ((congrArg _ h).trans (hcut hmore))
  exact ⟨rfl, (List.cons.inj (List.append_cancel_left h)).2⟩

/-- The first character tells which kind of piece is there, and no piece is the beginning of
another one. -/
theorem Piece.append_inj {p q : Piece} {xs ys : List Char}
    (h : p.spelled ++ xs = q.spelled ++ ys) : p = q ∧ xs = ys := by
  cases p with
  | single text htext =>
    cases q with
    | single more hmore =>
      have hrest : text ++ '\'' :: xs = more ++ '\'' :: ys := by simpa [Piece.spelled] using h
      obtain ⟨rfl, hend⟩ := literal_inj htext hmore hrest
      exact ⟨rfl, hend⟩
    | blank | plain | escaped | double => grind [Piece.spelled, ne_mark_of_isBlank]
  | double text =>
    cases q with
    | double more =>
      have hrest : text.flatMap Grouped.spelled ++ '"' :: xs =
          more.flatMap Grouped.spelled ++ '"' :: ys := by
        simpa [Piece.spelled] using h
      obtain ⟨rfl, hend⟩ := Grouped.append_inj hrest
      exact ⟨rfl, hend⟩
    | blank | plain | escaped | single => grind [Piece.spelled, ne_mark_of_isBlank]
  | blank | plain | escaped => cases q <;> grind [Piece.spelled, ne_mark_of_isBlank]

theorem Piece.spelled_ne_nil (p : Piece) : p.spelled ≠ [] := by
  cases p <;> exact List.cons_ne_nil _ _

theorem spelled_inj {r r' : List Piece} (h : spelled r = spelled r') : r = r' := by
  induction r generalizing r' with
  | nil =>
    cases r' with
    | nil => rfl
    | cons p r' => exact absurd (List.append_eq_nil_iff.mp h.symm).1 p.spelled_ne_nil
  | cons p r ih =>
    cases r' with
    | nil => exact absurd (List.append_eq_nil_iff.mp h).1 p.spelled_ne_nil
    | cons q r' =>
      obtain ⟨rfl, hrest⟩ := Piece.append_inj h
      rw [ih hrest]

end Gateway.App
