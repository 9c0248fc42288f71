import Gateway.Shell.Word

/-! The structure of shell scripts. -/
namespace Gateway.Shell

inductive RedirectKind where
  | write
  | append
  | input
  /-- What goes to where nobody looks. -/
  | other
  deriving DecidableEq

structure Redirect where
  kind : RedirectKind
  target : Word
  deriving DecidableEq

/-- A command of a script. -/
inductive Node where
  | simple (assignments : List (String × Word)) (words : List Word) (redirects : List Redirect)
  | sequence (first second : Node)
  | conjunction (first second : Node)
  | disjunction (first second : Node)
  | negation (n : Node)
  /-- Repeats the body as long as the test succeeds, or until it does. -/
  | loop (untilTrue : Bool) (test body : Node)
  | branch (test yes no : Node)
  | each (name : String) (words : List Word) (body : Node)
  | subshell (n : Node)
  | background (n : Node)

/-- The command that does nothing. -/
def Node.nothing : Node := .simple [] [] []

/-- The word as a keyword: unquoted text. -/
def keyword? : List Token → Option String
  | .word [.text s] :: _ => some s
  | _ => none

def keywords : List String :=
  ["if", "then", "elif", "else", "fi", "while", "until", "for", "do", "done", "\x7b", "\x7d", "!"]

def closers : List String := ["then", "elif", "else", "fi", "do", "done", "\x7d"]

def skipLines : List Token → List Token
  | .op "\n" :: rest => skipLines rest
  | ts => ts

def redirectKind? : String → Option RedirectKind
  | ">" | "1>" => some .write
  | ">>" => some .append
  | "<" => some .input
  | "2>" | "2>>" | "2>&" | "1>&" | ">&" => some .other
  | _ => none

/-- A word of the form `name=value`. -/
def assignment? : Word → Option (String × Word)
  | .text s :: rest =>
    let name := s.toList.takeWhile isNameChar
    match s.toList.drop name.length with
    | '=' :: value =>
      if name.head?.any isNameStart then
        some (String.ofList name, .text (String.ofList value) :: rest)
      else none
    | _ => none
  | _ => none

/-- Words and redirections up to an operator. -/
def readSimple : List Token → List (String × Word) → List Word → List Redirect →
    Option (Node × List Token)
  | .word w :: rest, assigned, words, redirects =>
    match words, assignment? w with
    | [], some a => readSimple rest (assigned ++ [a]) [] redirects
    | _, _ => readSimple rest assigned (words ++ [w]) redirects
  | .op op :: .word w :: rest, assigned, words, redirects =>
    match redirectKind? op with
    | some kind => readSimple rest assigned words (redirects ++ [⟨kind, w⟩])
    | none => finish (.op op :: .word w :: rest) assigned words redirects
  | ts, assigned, words, redirects => finish ts assigned words redirects
where
  finish (ts : List Token) (assigned : List (String × Word)) (words : List Word)
      (redirects : List Redirect) : Option (Node × List Token) :=
    if assigned.isEmpty && words.isEmpty && redirects.isEmpty then none
    else some (.simple assigned words redirects, ts)

/-- Drops a keyword that must come next. -/
def expect? (word : String) (ts : List Token) : Option (List Token) :=
  if keyword? ts == some word then some ts.tail else none

/-- The words before the end of a line. -/
def loopWords : List Token → List Word × List Token
  | .word w :: rest =>
    let (ws, rest) := loopWords rest
    (w :: ws, rest)
  | ts => ([], ts)

mutual

/-- Commands up to a keyword that closes them, or the end. -/
def readList? : Nat → List Token → Option (Node × List Token)
  | 0, _ => none
  | fuel + 1, ts => do
    let (first, ts) ← readAndOr? fuel (skipLines ts)
    let next (first : Node) (ts : List Token) : Option (Node × List Token) :=
      let ts := skipLines ts
      if ts.isEmpty || ts.head? == some (.op ")") || (keyword? ts).any closers.contains then
        some (first, ts)
      else (readList? fuel ts).map fun (second, ts) => (.sequence first second, ts)
    match ts with
    | .op ";" :: ts | .op "\n" :: ts => next first ts
    | .op "&" :: ts => next (.background first) ts
    | ts => some (first, ts)

def readAndOr? : Nat → List Token → Option (Node × List Token)
  | 0, _ => none
  | fuel + 1, ts => do
    let (first, ts) ← readCommand? fuel ts
    readOperators? fuel first ts

/-- What `&&` and `||` add to a command; they bind to the left. -/
def readOperators? : Nat → Node → List Token → Option (Node × List Token)
  | 0, _, _ => none
  | fuel + 1, first, ts =>
    match ts with
    | .op "&&" :: ts => do
      let (second, ts) ← readCommand? fuel (skipLines ts)
      readOperators? fuel (.conjunction first second) ts
    | .op "||" :: ts => do
      let (second, ts) ← readCommand? fuel (skipLines ts)
      readOperators? fuel (.disjunction first second) ts
    | ts => some (first, ts)

def readCommand? : Nat → List Token → Option (Node × List Token)
  | 0, _ => none
  | fuel + 1, ts =>
    match keyword? ts with
    | some "!" => (readCommand? fuel ts.tail).map fun (n, ts) => (.negation n, ts)
    | some "while" => readLoop? fuel false ts.tail
    | some "until" => readLoop? fuel true ts.tail
    | some "if" => readIf? fuel ts.tail
    | some "\x7b" => do
      let (n, ts) ← readList? fuel ts.tail
      some (n, ← expect? "\x7d" ts)
    | some "for" =>
      match ts.tail with
      | .word [.text name] :: .word [.text "in"] :: ts => do
        let (words, ts) := loopWords ts
        let ts := match ts with
          | .op ";" :: ts => skipLines ts
          | ts => skipLines ts
        let (body, ts) ← readList? fuel (← expect? "do" ts)
        some (.each name words body, ← expect? "done" ts)
      | _ => none
    | word =>
      if word.any keywords.contains then none
      else match ts with
        | .op "(" :: ts => do
          match ← readList? fuel ts with
          | (n, .op ")" :: ts) => some (.subshell n, ts)
          | _ => none
        | ts => readSimple ts [] [] []

def readLoop? : Nat → Bool → List Token → Option (Node × List Token)
  | 0, _, _ => none
  | fuel + 1, untilTrue, ts => do
    let (test, ts) ← readList? fuel ts
    let (body, ts) ← readList? fuel (← expect? "do" ts)
    some (.loop untilTrue test body, ← expect? "done" ts)

def readIf? : Nat → List Token → Option (Node × List Token)
  | 0, _ => none
  | fuel + 1, ts => do
    let (test, ts) ← readList? fuel ts
    let (yes, ts) ← readList? fuel (← expect? "then" ts)
    match keyword? ts with
    | some "elif" => (readIf? fuel ts.tail).map fun (no, ts) => (.branch test yes no, ts)
    | some "else" => do
      let (no, ts) ← readList? fuel ts.tail
      some (.branch test yes no, ← expect? "fi" ts)
    | _ => some (.branch test yes .nothing, ← expect? "fi" ts)

end

/-- Reads a script; `none` when it is ill-formed. -/
def parse? (script : String) : Option Node := do
  let ts := skipLines (← tokens? (script.length + 1) script.toList)
  if ts.isEmpty then some .nothing
  else match ← readList? (6 * ts.length + 6) ts with
    | (n, []) => some n
    | _ => none

end Gateway.Shell
