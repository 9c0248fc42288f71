import Gateway.Proofs.App.CommandPieces

/-! The words of a command line: a line can be cut at any blank behind a complete one, the words are
all of the line but what separates and quotes them, and words that are written between double quotes
are read back unless they are empty. -/
namespace Gateway.App

theorem splitCommand_eq_ok_iff {line : String} {words : List String} :
    splitCommand line = .ok words ↔
      ∃ r, spelled r = line.toList ∧ words = (wordsOf r).map String.ofList := by
  unfold splitCommand
  constructor
  · intro h
    cases hscan : scanWords .none false [] line.toList with
    | error e =>
      rw [hscan] at h
      cases h
    | ok found =>
      rw [hscan] at h
      obtain ⟨r, hr, rfl⟩ := scanWords_eq_ok_iff.mp hscan
      exact ⟨r, hr, (Except.ok.inj h).symm⟩
  · rintro ⟨r, hr, rfl⟩
    rw [scanWords_eq_ok_iff.mpr ⟨r, hr, rfl⟩]
    rfl

/-! ### Lines behind one another -/

theorem splitCommand_append_blank {line : String} {words : List String}
    (h : splitCommand line = .ok words) {c : Char} (hc : Text.isBlank c = true) (more : String) :
    splitCommand (line ++ String.singleton c ++ more) = (splitCommand more).map (words ++ ·) := by
  obtain ⟨r, hr, rfl⟩ := splitCommand_eq_ok_iff.mp h
  have hend (word : List Char) : scanWords .none false word (c :: more.toList) =
      (scanWords .none false [] more.toList).map (consWord word) :=
    scanWords_piece word more.toList (.blank c hc)
  have hscan := scanWords_spelled hend r []
  rw [hr, wordsBehind_empty] at hscan
  have hline : (line ++ String.singleton c ++ more).toList = line.toList ++ c :: more.toList := by
    simp
  unfold splitCommand
  rw [hline, hscan]
  cases scanWords .none false [] more.toList with
  | error e => rfl
  | ok found => exact congrArg Except.ok List.map_append

/-! ### Nothing is lost -/

/-- Blanks have no text, so it does not matter to the text where the pieces are cut. -/
theorem flatten_splitOnP_kept (r : List Piece) :
    ((r.splitOnP Piece.isBlank).map kept).flatten = kept r := by
  induction r with
  | nil => rfl
  | cons p r ih =>
    rw [List.splitOnP_cons_eq_if_modifyHead]
    split
    · rename_i hp
      have htext : p.text = [] := by
        cases p with
        | blank => rfl
        | plain | escaped | single | double => cases hp
      simp [ih, htext]
    · obtain ⟨first, others, hsplit⟩ :=
        List.exists_cons_of_ne_nil (List.splitOnP_ne_nil Piece.isBlank r)
      rw [hsplit] at ih ⊢
      simpa using ih

theorem flatten_wordsOf (r : List Piece) : (wordsOf r).flatten = kept r := by
  rw [wordsOf, List.flatten_filter_not_isEmpty, flatten_splitOnP_kept]

theorem ne_nil_of_mem_wordsOf {r : List Piece} {word : List Char} (h : word ∈ wordsOf r) :
    word ≠ [] := by
  have hnot := (List.mem_filter.mp h).2
  rintro rfl
  cases hnot

/-- Where a line can be split, any other line may follow it behind a blank, with its own words or its
own error. The line has one reading; its words together are the text of that reading, which leaves
out the blanks outside quotes, the quotes around text and the backslashes in front of what they
escape; and none of the words is empty. -/
theorem splitCommand_composes {line : String} {words : List String}
    (h : splitCommand line = .ok words) :
    (∀ (c : Char) (more : String), Text.isBlank c = true →
      splitCommand (line ++ String.singleton c ++ more) = (splitCommand more).map (words ++ ·)) ∧
    (∃ r : List Piece, (∀ r', spelled r' = line.toList ↔ r' = r) ∧
      words.flatMap String.toList = kept r) ∧
    ∀ word ∈ words, word ≠ "" := by
  refine ⟨fun c more hc => splitCommand_append_blank h hc more, ?_⟩
  obtain ⟨r, hr, rfl⟩ := splitCommand_eq_ok_iff.mp h
  refine ⟨⟨r, fun r' => ?_, ?_⟩, ?_⟩
  · rw [← hr]
    exact ⟨spelled_inj, congrArg spelled⟩
  · have hwords : ((wordsOf r).map String.ofList).flatMap String.toList = (wordsOf r).flatten := by
      simp [List.flatMap_map]
    rw [hwords, flatten_wordsOf]
  · intro word hword
    obtain ⟨found, hfound, rfl⟩ := List.mem_map.mp hword
    intro hempty
    have hnil := congrArg String.toList hempty
    rw [String.toList_ofList] at hnil
    exact ne_nil_of_mem_wordsOf hfound hnil

/-- One word made of text in both quotes, with escapes in one of them; a line behind it that opens a
quote, and one that does not. -/
theorem splitCommand_composes_of_adjacent_quotes :
    let line := "sh -c\t'it'\"'s \\\"on\\\"\""
    splitCommand line = .ok ["sh", "-c", "it's \"on\""] ∧
      splitCommand (line ++ String.singleton '\u2003' ++ "'x") = .error .unterminatedQuote ∧
      splitCommand (line ++ String.singleton ' ' ++ "x\\ y") =
        .ok ["sh", "-c", "it's \"on\"", "x y"] ∧
      ∃ r, spelled r = line.toList ∧ kept r = "sh-cit's \"on\"".toList := by
  have hline : splitCommand "sh -c\t'it'\"'s \\\"on\\\"\"" = .ok ["sh", "-c", "it's \"on\""] := rfl
  obtain ⟨hbehind, ⟨r, hr, hkept⟩, -⟩ := splitCommand_composes hline
  refine ⟨hline, ?_, ?_, r, (hr r).mpr rfl, hkept.symm⟩
  · rw [hbehind _ _ (by decide)]
    rfl
  · rw [hbehind _ _ (by decide)]
    rfl

end Gateway.App
