import Gateway.Config.Load
import Gateway.Proofs.App.CommandWords
import Gateway.Proofs.Config.TargetPort

/-! Commands with nothing to run. Settings are refused for one that is blank throughout; a start finds
one empty that has no words, and quotes with nothing between them make none. -/
namespace Gateway

namespace App

/-- Blanks, and quotes with nothing between them. -/
inductive Hollow : List Char → Prop
  | nil : Hollow []
  | blank {c : Char} {cs : List Char} (hblank : Text.isBlank c = true) (hrest : Hollow cs) :
    Hollow (c :: cs)
  | single {cs : List Char} (hrest : Hollow cs) : Hollow ('\'' :: '\'' :: cs)
  | double {cs : List Char} (hrest : Hollow cs) : Hollow ('"' :: '"' :: cs)

theorem hollow_iff_kept {cs : List Char} : Hollow cs ↔ ∃ r, spelled r = cs ∧ kept r = [] := by
  constructor
  · intro h
    induction h with
    | nil => exact ⟨[], rfl, rfl⟩
    | @blank c cs hblank hrest ih =>
      obtain ⟨r, rfl, hkept⟩ := ih
      exact ⟨.blank c hblank :: r, rfl, hkept⟩
    | single hrest ih =>
      obtain ⟨r, rfl, hkept⟩ := ih
      exact ⟨.single [] List.not_mem_nil :: r, rfl, hkept⟩
    | double hrest ih =>
      obtain ⟨r, rfl, hkept⟩ := ih
      exact ⟨.double [] :: r, rfl, hkept⟩
  · rintro ⟨r, rfl, hkept⟩
    induction r with
    | nil => exact .nil
    | cons p r ih =>
      obtain ⟨htext, hrest⟩ := List.append_eq_nil_iff.mp hkept
      cases p with
      | blank c hblank => exact .blank hblank (ih hrest)
      | plain | escaped => cases htext
      | single text hquote =>
        obtain rfl : text = [] := htext
        exact .single (ih hrest)
      | double text =>
        obtain rfl := List.map_eq_nil_iff.mp htext
        exact .double (ih hrest)

theorem wordsOf_eq_nil_iff {r : List Piece} : wordsOf r = [] ↔ kept r = [] := by
  rw [← flatten_wordsOf]
  constructor
  · intro h
    rw [h, List.flatten_nil]
  · intro h
    refine List.eq_nil_iff_forall_not_mem.mpr fun word hword => ne_nil_of_mem_wordsOf hword ?_
    exact List.flatten_eq_nil_iff.mp h word hword

theorem splitCommand_eq_nil_iff {line : String} : splitCommand line = .ok [] ↔ Hollow line.toList := by
  rw [splitCommand_eq_ok_iff, hollow_iff_kept]
  constructor
  · rintro ⟨r, hr, hwords⟩
    exact ⟨r, hr, wordsOf_eq_nil_iff.mp (List.map_eq_nil_iff.mp hwords.symm)⟩
  · rintro ⟨r, hr, hkept⟩
    rw [← wordsOf_eq_nil_iff] at hkept
    exact ⟨r, hr, by rw [hkept, List.map_nil]⟩

theorem scanWords_ne_emptyCommand {quote : Quote} {escaped : Bool} {word cs : List Char} :
    scanWords quote escaped word cs ≠ .error .emptyCommand := by
  fun_induction scanWords quote escaped word cs with
  | case1 | case2 | case3 =>
    intro h
    cases h
  | case13 escaped word c rest hescaped _ _ _ hblank ih =>
    cases hscan : scanWords .none false [] rest with
    | error e =>
      rw [hscan] at ih
      exact fun h => ih h
    | ok words =>
      intro h
      cases h
  | _ => assumption

theorem splitCommand_ne_emptyCommand (line : String) :
    splitCommand line ≠ .error .emptyCommand := by
  unfold splitCommand
  cases hscan : scanWords .none false [] line.toList with
  | error e =>
    intro h
    obtain rfl : e = .emptyCommand := Except.error.inj h
    exact scanWords_ne_emptyCommand hscan
  | ok words => exact nofun

/-- A start finds nothing to run exactly if there is nothing but blanks and empty quotes. -/
theorem Command.parse_eq_emptyCommand_iff {line : String} {extra : List String} :
    Command.parse line extra = .error .emptyCommand ↔ Hollow line.toList := by
  rw [← splitCommand_eq_nil_iff]
  unfold Command.parse
  cases hsplit : splitCommand line with
  | error e =>
    have hother : e ≠ .emptyCommand := by
      rintro rfl
      exact splitCommand_ne_emptyCommand line hsplit
    exact iff_of_false (fun h => hother (Except.error.inj h)) nofun
  | ok words =>
    cases words with
    | nil => exact iff_of_true rfl rfl
    | cons program args => exact iff_of_false nofun nofun

end App

namespace Config
open App

theorem isEmpty_trim_iff {cs : List Char} :
    (Text.trim cs).isEmpty = true ↔ ∀ c ∈ cs, Text.isBlank c = true := by
  unfold Text.trim
  rw [List.isEmpty_reverse, List.isEmpty_iff, List.dropWhile_eq_nil_iff]
  constructor
  · intro h c hc
    rw [← List.takeWhile_append_dropWhile (p := Text.isBlank) (l := cs)] at hc
    rcases List.mem_append.mp hc with hfront | hback
    · exact List.mem_takeWhile_imp hfront
    · exact h c (List.mem_reverse.mpr hback)
  · intro h c hc
    exact h c ((List.dropWhile_sublist _).subset (List.mem_reverse.mp hc))

theorem emptyCommand_not_mem_proxyProblems (s : Settings) :
    SettingsProblem.emptyCommand ∉ proxyProblems s := by
  have htarget : targetProblem? s.targetUrl ≠ some .emptyCommand := by
    unfold targetProblem?
    split
    · exact nofun
    · split
      · exact nofun
      · split <;> exact nofun
  have hcache : SettingsProblem.emptyCommand ∉ cacheProblems s.proxy.cache := by
    simp [cacheProblems, List.mem_ite_nil_left]
  unfold proxyProblems
  split
  · exact List.not_mem_nil
  · rw [List.mem_append, not_or]
    refine ⟨?_, hcache⟩
    split
    · simp
    · rwa [Option.mem_toList]

/-- Settings are refused for a command that is blank throughout. -/
theorem emptyCommand_mem_problems_iff {s : Settings} : SettingsProblem.emptyCommand ∈ problems s ↔
    s.app.enabled = true ∧ ∀ c ∈ s.app.command.toList, Text.isBlank c = true := by
  rw [← isEmpty_trim_iff, ← Bool.and_eq_true]
  simp [problems, emptyCommand_not_mem_proxyProblems]

/-- Accepted settings have a command that is not blank throughout, and a start can make something of
it, or says which quote or backslash is at fault, exactly if it is not hollow. -/
theorem accepted_not_emptyCommand_iff {s : Settings} (hproblems : problems s = [])
    (henabled : s.app.enabled = true) :
    (∃ c ∈ s.app.command.toList, Text.isBlank c = false) ∧
      (Command.parse s.app.command s.app.args ≠ .error .emptyCommand ↔
        ¬ Hollow s.app.command.toList) := by
  refine ⟨?_, Command.parse_eq_emptyCommand_iff.not⟩
  by_contra hnone
  have hblank : ∀ c ∈ s.app.command.toList, Text.isBlank c = true := by
    intro c hc
    by_contra hc'
    exact hnone ⟨c, hc, Bool.eq_false_iff.mpr hc'⟩
  have hmem := emptyCommand_mem_problems_iff.mpr ⟨henabled, hblank⟩
  rw [hproblems] at hmem
  cases hmem

theorem accepted_not_emptyCommand_of_quoted_word :
    let text := "[upstream]\nenabled = true\ncommand = \"'' \\\"\\\"a\""
    ∃ s, parse text = .ok s ∧ s.app.command = "'' \"\"a" ∧
      Command.parse s.app.command s.app.args ≠ .error .emptyCommand := by
  intro text
  have hloaded : ((parse text).toOption.map (·.app)) =
      some { enabled := true, command := "'' \"\"a", port := 3000 } := by
    decide +kernel
  obtain ⟨s, hs, happ⟩ := Option.map_eq_some_iff.mp hloaded
  have hparse := ok_of_toOption hs
  obtain ⟨-, -, -, hproblems⟩ := parse_eq_ok hparse
  have hcommand : s.app.command = "'' \"\"a" := by rw [happ]
  obtain ⟨-, hiff⟩ := accepted_not_emptyCommand_iff hproblems (by rw [happ])
  have hwords : splitCommand "'' \"\"a" = .ok ["a"] := rfl
  refine ⟨s, hparse, hcommand, hiff.mpr ?_⟩
  rw [hcommand, ← splitCommand_eq_nil_iff, hwords]
  exact fun h => List.cons_ne_nil _ _ (Except.ok.inj h)

/-- A pair of quotes is accepted as a command, and a start finds it empty. -/
theorem accepted_emptyCommand_of_empty_quotes :
    let text := "[upstream]\nenabled = true\ncommand = \"''\""
    ∃ s, parse text = .ok s ∧ problems s = [] ∧ s.app.enabled = true ∧
      Command.parse s.app.command s.app.args = .error .emptyCommand := by
  intro text
  have hloaded : ((parse text).toOption.map (·.app)) =
      some { enabled := true, command := "''", port := 3000 } := by
    decide +kernel
  obtain ⟨s, hs, happ⟩ := Option.map_eq_some_iff.mp hloaded
  have hparse := ok_of_toOption hs
  obtain ⟨-, -, -, hproblems⟩ := parse_eq_ok hparse
  refine ⟨s, hparse, hproblems, by rw [happ], ?_⟩
  rw [happ]
  rfl

end Config

end Gateway
