import Gateway.Proofs.App.CommandWords

/-! Arguments written between double quotes, with a backslash in front of each double quote and
backslash, on one line: every argument is read back as it was, but an empty one is left out. -/
namespace Gateway.App

def escapeGrouped (c : Char) : List Char := if c = '\\' ∨ c = '"' then ['\\', c] else [c]

def quoted (arg : String) : String :=
  "\"" ++ String.ofList (arg.toList.flatMap escapeGrouped) ++ "\""

/-- The arguments between double quotes, with a space between any two. -/
def quotedLine (args : List String) : String := " ".intercalate (args.map quoted)

def Grouped.of (c : Char) : Grouped :=
  if h : c = '\\' ∨ c = '"' then .escaped c
  else .plain c (fun hc => h (.inl hc)) (fun hc => h (.inr hc))

theorem Grouped.spelled_of (c : Char) : (Grouped.of c).spelled = escapeGrouped c := by
  unfold Grouped.of escapeGrouped
  split <;> rfl

theorem Grouped.char_of (c : Char) : (Grouped.of c).char = c := by
  unfold Grouped.of
  split <;> rfl

def Piece.ofArgument (arg : String) : Piece := .double (arg.toList.map Grouped.of)

theorem Piece.spelled_ofArgument (arg : String) :
    (Piece.ofArgument arg).spelled = (quoted arg).toList := by
  have hspelled : (fun c => (Grouped.of c).spelled) = escapeGrouped := funext Grouped.spelled_of
  simp [Piece.ofArgument, Piece.spelled, quoted, List.flatMap_map, hspelled]

theorem Piece.text_ofArgument (arg : String) : (Piece.ofArgument arg).text = arg.toList := by
  have hchar : Grouped.char ∘ Grouped.of = id := funext Grouped.char_of
  simp [Piece.ofArgument, Piece.text, hchar]

def quotedReading : List String → List Piece
  | [] => []
  | [arg] => [.ofArgument arg]
  | arg :: next :: args => .ofArgument arg :: .blank ' ' (by decide) :: quotedReading (next :: args)

theorem spelled_quotedReading (args : List String) :
    spelled (quotedReading args) = (quotedLine args).toList := by
  fun_induction quotedReading args with
  | case1 => rfl
  | case2 arg =>
    rw [quotedLine, List.map_singleton, String.intercalate_singleton, spelled_cons,
      Piece.spelled_ofArgument, spelled_nil, List.append_nil]
  | case3 arg next args ih =>
    rw [spelled_cons, spelled_cons, Piece.spelled_ofArgument, ih]
    simp [Piece.spelled, quotedLine]

theorem wordsOf_quotedReading (args : List String) :
    wordsOf (quotedReading args) = (args.map String.toList).filter (!·.isEmpty) := by
  have hword (arg : String) (words : List (List Char)) :
      consWord arg.toList (words.filter (!·.isEmpty)) =
        (arg.toList :: words).filter (!·.isEmpty) := by
    cases arg.toList <;> rfl
  fun_induction quotedReading args with
  | case1 => rfl
  | case2 arg =>
    rw [← wordsBehind_empty, wordsBehind_cons_text _ _ rfl, Piece.text_ofArgument, wordsBehind_nil]
    exact hword arg []
  | case3 arg next args ih =>
    rw [← wordsBehind_empty, wordsBehind_cons_text _ _ rfl, Piece.text_ofArgument,
      wordsBehind_cons_blank _ _ rfl, ih]
    exact hword arg _

theorem splitCommand_quotedLine (args : List String) :
    splitCommand (quotedLine args) = .ok (args.filter (· ≠ "")) := by
  refine splitCommand_eq_ok_iff.mpr ⟨quotedReading args, spelled_quotedReading args, ?_⟩
  have hempty (arg : String) : decide (arg ≠ "") = !arg.toList.isEmpty := by
    by_cases h : arg = ""
    · simp [h]
    · simp [h]
  rw [wordsOf_quotedReading, List.filter_map, List.map_map]
  simp [Function.comp_def, hempty]

/-- Quoted arguments are read back exactly if none of them is empty. -/
theorem splitCommand_quotedLine_eq_iff (args : List String) :
    splitCommand (quotedLine args) = .ok args ↔ "" ∉ args := by
  rw [splitCommand_quotedLine, Except.ok.injEq, List.filter_eq_self]
  constructor
  · intro hall hmem
    exact of_decide_eq_true (hall "" hmem) rfl
  · intro hnot arg harg
    refine decide_eq_true fun hempty => hnot ?_
    rwa [← hempty]

/-- An empty argument between two others leaves no trace. -/
theorem splitCommand_quotedLine_of_empty :
    quotedLine ["run", "", "x"] = "\"run\" \"\" \"x\"" ∧
      splitCommand (quotedLine ["run", "", "x"]) = .ok ["run", "x"] ∧
      splitCommand (quotedLine ["run", "", "x"]) ≠ .ok ["run", "", "x"] := by
  have hsplit : splitCommand (quotedLine ["run", "", "x"]) = .ok ["run", "x"] := rfl
  refine ⟨rfl, hsplit, ?_⟩
  rw [hsplit]
  exact fun h => absurd (Except.ok.inj h) (by decide)

end Gateway.App
