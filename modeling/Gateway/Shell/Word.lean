import Gateway.App.Command

/-! Words and operators of shell scripts. -/
namespace Gateway.Shell
open App (Quote)

/-- A part of a word: text that stands for itself, or a parameter, whose value is split at blanks
unless it is quoted. -/
inductive Piece where
  | text (s : String)
  | parameter (name : String) (quoted : Bool)
  deriving DecidableEq

abbrev Word := List Piece

inductive Token where
  | word (w : Word)
  | op (text : String)
  deriving DecidableEq

def isNameStart (c : Char) : Bool := c.isAlpha || c == '_'

def isNameChar (c : Char) : Bool := c.isAlphanum || c == '_'

def isSeparator (c : Char) : Bool := " \t\n;&|<>()".toList.contains c

/-- Puts text in front of a word. -/
def Word.withText (s : List Char) : Word → Word
  | .text t :: rest => .text (String.ofList (s ++ t.toList)) :: rest
  | w => .text (String.ofList s) :: w

/-- The name of the parameter after a dollar sign, and what follows; `none` when the dollar sign
stands for itself. -/
def parameterName? (cs : List Char) : Option (String × List Char) :=
  match cs with
  | '\x7b' :: rest =>
    let name := rest.takeWhile (· != '\x7d')
    match rest.drop name.length with
    | _ :: rest => if name.isEmpty then none else some (String.ofList name, rest)
    | [] => none
  | c :: rest =>
    if "$?#@*!".toList.contains c || c.isDigit then some (c.toString, rest)
    else if isNameStart c then
      some (String.ofList (cs.takeWhile isNameChar), cs.dropWhile isNameChar)
    else none
  | [] => none

/-- Whether a backslash takes away the meaning of a character between double quotes. -/
def isEscapable (c : Char) : Bool := "$\x60\"\\\n".toList.contains c

/-- Reads a word up to a separator; `none` when a quote is left open. -/
def readWord? : Nat → Quote → List Char → Option (Word × List Char)
  | 0, _, _ => none
  | fuel + 1, quote, cs =>
    let after (s : List Char) (q : Quote) (rest : List Char) : Option (Word × List Char) :=
      (readWord? fuel q rest).map fun (w, rest) => (w.withText s, rest)
    match quote, cs with
    | .none, [] => some ([], [])
    | _, [] => none
    | .single, '\'' :: rest => after [] .none rest
    | .single, c :: rest => after [c] .single rest
    | .double, '"' :: rest => after [] .none rest
    | .none, '\'' :: rest => after [] .single rest
    | .none, '"' :: rest => after [] .double rest
    | .double, '\\' :: c :: rest =>
      if isEscapable c then after [c] .double rest else after ['\\', c] .double rest
    | .none, '\\' :: c :: rest => after [c] .none rest
    | _, '$' :: rest =>
      match parameterName? rest with
      | some (name, rest) => (readWord? fuel quote rest).map fun (w, rest) =>
        (.parameter name (quote != .none) :: w, rest)
      | none => after ['$'] quote rest
    | .none, c :: rest => if isSeparator c then some ([], cs) else after [c] .none rest
    | .double, c :: rest => after [c] .double rest

/-- The operators, longer ones first. -/
def operators : List String :=
  ["2>>", "2>&", "1>&", "2>", "1>", "&&", "||", ">>", ">&", ";", "&", "|", "<", ">", "(", ")", "\n"]

/-- The operator that a text begins with. -/
def operator? (cs : List Char) : Option String := operators.find? (·.toList.isPrefixOf cs)

/-- The words and operators of a script; `none` when a quote is left open. -/
def tokens? : Nat → List Char → Option (List Token)
  | 0, _ => none
  | _, [] => some []
  | fuel + 1, c :: rest =>
    if c == ' ' || c == '\t' then tokens? fuel rest
    else if c == '#' then tokens? fuel (rest.dropWhile (· != '\n'))
    else match operator? (c :: rest) with
      | some op => (tokens? fuel ((c :: rest).drop op.length)).map (.op op :: ·)
      | none => do
        let (w, rest) ← readWord? (rest.length + 2) .none (c :: rest)
        some (.word w :: (← tokens? fuel rest))

end Gateway.Shell
