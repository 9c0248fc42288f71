import Gateway.Text.Blank

/-! Command lines: words between blanks, with quotes and backslashes. -/
namespace Gateway.App

inductive CommandError where
  | emptyCommand
  | unterminatedEscape
  | unterminatedQuote
  deriving DecidableEq

def CommandError.message : CommandError → String
  | emptyCommand => "upstream command is empty"
  | unterminatedEscape => "unterminated escape sequence in command"
  | unterminatedQuote => "unterminated quoted string in command"

/-- The quotes that the scanner stands in. -/
inductive Quote where
  | none
  | single
  | double
  deriving DecidableEq

/-- Puts a word in front of the words that follow, unless it is empty. -/
def consWord (word : List Char) (words : List (List Char)) : List (List Char) :=
  if word.isEmpty then words else word :: words

/-- The words of what is left, the one begun being `word`. A backslash makes the next character part
of the word, except between single quotes, where it stands for itself. -/
def scanWords (quote : Quote) (escaped : Bool) (word : List Char) :
    List Char → Except CommandError (List (List Char))
  | [] =>
    if escaped then .error .unterminatedEscape
    else match quote with
      | .none => .ok (consWord word [])
      | _ => .error .unterminatedQuote
  | c :: rest =>
    if escaped then scanWords quote false (word ++ [c]) rest
    else match quote with
      | .single =>
        if c = '\'' then scanWords .none false word rest
        else scanWords .single false (word ++ [c]) rest
      | .double =>
        if c = '\\' then scanWords .double true word rest
        else if c = '"' then scanWords .none false word rest
        else scanWords .double false (word ++ [c]) rest
      | .none =>
        if c = '\\' then scanWords .none true word rest
        else if c = '\'' then scanWords .single false word rest
        else if c = '"' then scanWords .double false word rest
        else if Text.isBlank c then (scanWords .none false [] rest).map (consWord word)
        else scanWords .none false (word ++ [c]) rest

/-- The words of a command line; quotes alone make no word. -/
def splitCommand (line : String) : Except CommandError (List String) :=
  (scanWords .none false [] line.toList).map fun words => words.map String.ofList

/-- A program and its arguments. -/
structure Command where
  program : String
  args : List String
  deriving DecidableEq

/-- The first word is the program; the given arguments come after the other words. -/
def Command.parse (line : String) (extra : List String) : Except CommandError Command := do
  match ← splitCommand line with
  | [] => .error .emptyCommand
  | program :: args => .ok ⟨program, args ++ extra⟩

end Gateway.App
