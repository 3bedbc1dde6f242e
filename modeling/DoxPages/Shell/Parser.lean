import DoxPages.Shell.Command

/-!
# Reading shell scripts

-/

namespace DoxPages.Shell

/-- Where a piece of a word stands: by itself, in double quotes, or in a text for the input. -/
inductive Place where
  | bare | quotes | body
  deriving DecidableEq, Repr

def skipComment : List Char → List Char
  | '#' :: cs => cs.dropWhile (· ≠ '\n')
  | cs => cs

/-- Skips blanks, joined lines, and a comment. -/
def skipBlanks : List Char → List Char
  | '\\' :: '\n' :: cs => skipBlanks cs
  | c :: cs => if isBlankChar c then skipBlanks cs else skipComment (c :: cs)
  | [] => []

/-- Skips what may stand between two commands. -/
def skipSeparators : (fuel : Nat) → List Char → List Char
  | 0, cs => cs
  | fuel + 1, cs =>
    match skipBlanks cs with
    | '\n' :: cs => skipSeparators fuel cs
    | ';' :: cs => skipSeparators fuel cs
    | cs => cs

/-- The unquoted letters at the head of a word, if they are all of it. -/
def plainWord (cs : List Char) : String :=
  let run := cs.takeWhile fun c => !endsWord c
  String.ofList run

/-- A name with an equals sign behind it. -/
def setting? (cs : List Char) : Option (String × List Char) :=
  let name := cs.takeWhile isNameChar
  match name, cs.drop name.length with
  | c :: _, '=' :: rest => if c.isDigit then none else some (String.ofList name, rest)
  | _, _ => none

/-- A redirection with the stream it is for. -/
def arrow? (cs : List Char) : Option (Nat × Direction × List Char) :=
  let (stream, rest) := match cs with
    | c :: rest =>
      if c.isDigit ∧ (rest.head? = some '>' ∨ rest.head? = some '<') then
        (some (c.toNat - '0'.toNat), rest)
      else (none, cs)
    | [] => (none, cs)
  match rest with
  | '>' :: '>' :: rest => some (stream.getD 1, .append, rest)
  | '>' :: '&' :: rest => some (stream.getD 1, .duplicate, rest)
  | '>' :: rest => some (stream.getD 1, .write, rest)
  | '<' :: '<' :: rest => some (stream.getD 0, .here, rest)
  | '<' :: rest => some (stream.getD 0, .read, rest)
  | _ => none

/-- Cuts the lines up to one that is the delimiter out of a text, behind its first line. -/
def cutBody (delimiter : List Char) (cs : List Char) : List Char × List Char :=
  let line := cs.takeWhile (· ≠ '\n')
  let (body, rest) := go ((Text.splitChar '\n' (cs.drop (line.length + 1))))
  (body, line ++ '\n' :: rest)
where
  go : List (List Char) → List Char × List Char
    | [] => ([], [])
    | l :: ls =>
      if l = delimiter then ([], ['\n'].intercalate ls)
      else
        let (body, rest) := go ls
        (l ++ '\n' :: body, rest)

def pieceText : Piece → List Char
  | .text cs _ => cs
  | _ => []

def isQuoted : Piece → Bool
  | .text _ quoted => quoted
  | _ => false

mutual

/-- The pieces of a word up to its end. -/
def pieces : (fuel : Nat) → Place → List Char → Option (List Piece × List Char)
  | 0, _, _ => none
  | fuel + 1, place, cs =>
    let quoted := place ≠ .bare
    let add (p : Piece) (rest : List Char) := do
      let (ps, rest) ← pieces fuel place rest
      return (p :: ps, rest)
    match cs with
    | [] => if place = .quotes then none else some ([], [])
    | c :: rest =>
      if place = .bare ∧ endsWord c ∨ place = .quotes ∧ c = '"' then some ([], cs)
      else if c = '\\' then
        match rest with
        | [] => add (.text ['\\'] true) []
        | d :: rest' =>
          if d = '\n' then pieces fuel place rest'
          else if place = .bare ∨ escapable.contains d then add (.text [d] true) rest'
          else add (.text ['\\'] true) rest
      else if c = '$' then do
        let (p, rest) ← dollar fuel quoted rest
        add p rest
      else if c = '\'' ∧ place = .bare then
        let run := rest.takeWhile (· ≠ '\'')
        if run.length = rest.length then none
        else add (.text run true) (rest.drop (run.length + 1))
      else if c = '"' ∧ place = .bare then do
        let (ps, rest) ← pieces fuel .quotes rest
        let (more, rest) ← pieces fuel place (rest.drop 1)
        return (.text [] true :: ps ++ more, rest)
      else if c = '\x60' then none
      else add (.text [c] quoted) rest

/-- What stands behind a dollar sign. -/
def dollar : (fuel : Nat) → (quoted : Bool) → List Char → Option (Piece × List Char)
  | 0, _, _ => none
  | fuel + 1, quoted, cs =>
    match cs with
    | '(' :: '(' :: _ => none
    | '(' :: rest => do
      let (body, rest) ← script fuel rest
      match rest with
      | ')' :: rest => return (.output body quoted, rest)
      | _ => none
    | '\x7b' :: rest =>
      let name := rest.takeWhile (· ≠ '\x7d')
      if name ≠ [] ∧ (name.all isNameChar ∨ name.length = 1) ∧ name.length < rest.length then
        some (.param (String.ofList name) quoted, rest.drop (name.length + 1))
      else none
    | c :: rest =>
      if c.isDigit || specialNames.contains c then
        some (.param (String.singleton c) quoted, rest)
      else if isNameChar c then
        let name := cs.takeWhile isNameChar
        some (.param (String.ofList name) quoted, cs.drop name.length)
      else some (.text ['$'] quoted, cs)
    | [] => some (.text ['$'] quoted, [])

/-- The words up to the end of a command. -/
def wordList : (fuel : Nat) → List Char → Option (List (List Piece) × List Char)
  | 0, _ => none
  | fuel + 1, cs =>
    let cs := skipBlanks cs
    match cs with
    | [] => some ([], [])
    | c :: _ =>
      if endsWord c then some ([], cs)
      else do
        let (w, rest) ← pieces fuel .bare cs
        let (ws, rest) ← wordList fuel rest
        return (w :: ws, rest)

/-- Settings, words and redirections, in any order but settings first. -/
def simple : (fuel : Nat) → (settings : List (String × List Piece)) →
    (words : List (List Piece)) → (redirects : List Redirect) → List Char →
    Option (Command × List Char)
  | 0, _, _, _, _ => none
  | fuel + 1, settings, words, redirects, cs =>
    let cs := skipBlanks cs
    match arrow? cs with
    | some (stream, .here, rest) => do
      let (delimiter, rest) ← pieces fuel .bare (skipBlanks rest)
      let (body, rest) := cutBody (delimiter.flatMap pieceText) rest
      let body ← if delimiter.any isQuoted then some [.text body true]
        else (pieces fuel .body body).map Prod.fst
      simple fuel settings words (redirects ++ [.mk stream .here body]) rest
    | some (stream, direction, rest) => do
      let (target, rest) ← pieces fuel .bare (skipBlanks rest)
      simple fuel settings words (redirects ++ [.mk stream direction target]) rest
    | none =>
      match cs with
      | [] => some (.simple settings words redirects, [])
      | c :: _ =>
        if endsWord c then some (.simple settings words redirects, cs)
        else match words, setting? cs with
          | [], some (name, rest) => do
            let (value, rest) ← pieces fuel .bare rest
            simple fuel (settings ++ [(name, value)]) words redirects rest
          | _, _ => do
            let (w, rest) ← pieces fuel .bare cs
            simple fuel settings (words ++ [w]) redirects rest

/-- The rest of a conditional, behind its first word. -/
def choice : (fuel : Nat) → List Char → Option (Command × List Char)
  | 0, _ => none
  | fuel + 1, cs => do
    let (test, cs) ← script fuel cs
    if plainWord cs ≠ "then" then none
    let (thens, cs) ← script fuel (cs.drop 4)
    match plainWord cs with
    | "fi" => return (.choice test thens [], cs.drop 2)
    | "elif" =>
      let (c, cs) ← choice fuel (cs.drop 4)
      return (.choice test thens [c], cs)
    | "else" =>
      let (elses, cs) ← script fuel (cs.drop 4)
      if plainWord cs = "fi" then return (.choice test thens elses, cs.drop 2) else none
    | _ => none

def command : (fuel : Nat) → List Char → Option (Command × List Char)
  | 0, _ => none
  | fuel + 1, cs =>
    match plainWord cs with
    | "if" => choice fuel (cs.drop 2)
    | "for" => do
      let cs := skipBlanks (cs.drop 3)
      let name := cs.takeWhile isNameChar
      let cs := skipBlanks (cs.drop name.length)
      let (words, cs) ←
        if plainWord cs = "in" then wordList fuel (cs.drop 2)
        else some ([[.param "@" true]], cs)
      let cs := skipSeparators fuel cs
      if plainWord cs ≠ "do" then none
      let (body, cs) ← script fuel (cs.drop 2)
      if plainWord cs = "done" then
        return (.each (String.ofList name) words body, cs.drop 4)
      else none
    | "\x7b" => do
      let (body, cs) ← script fuel (cs.drop 1)
      if plainWord cs = "\x7d" then return (.group body, cs.drop 1) else none
    | "!" => do
      let (c, cs) ← command fuel (skipBlanks (cs.drop 1))
      return (.negate c, cs)
    | _ => simple fuel [] [] [] cs

/-- Commands with pipes between them. -/
def pipeline : (fuel : Nat) → List Char → Option (Command × List Char)
  | 0, _ => none
  | fuel + 1, cs => do
    let (c, cs) ← command fuel cs
    match skipBlanks cs with
    | '|' :: '|' :: _ => return (c, skipBlanks cs)
    | '|' :: rest => do
      let (d, cs) ← pipeline fuel (skipSeparators fuel rest)
      return (.pipe c d, cs)
    | cs => return (c, cs)

/-- Pipelines of which the next one depends on what became of the last one. -/
def chain : (fuel : Nat) → Command → List Char → Option (Command × List Char)
  | 0, _, _ => none
  | fuel + 1, c, cs =>
    match cs with
    | '&' :: '&' :: rest => do
      let (d, cs) ← pipeline fuel (skipSeparators fuel rest)
      chain fuel (.both c d) cs
    | '|' :: '|' :: rest => do
      let (d, cs) ← pipeline fuel (skipSeparators fuel rest)
      chain fuel (.either c d) cs
    | _ => some (c, cs)

/-- Commands up to the end of the text or of what they stand in. -/
def script : (fuel : Nat) → List Char → Option (List Command × List Char)
  | 0, _ => none
  | fuel + 1, cs =>
    let cs := skipSeparators (cs.length + 1) cs
    if cs = [] ∨ cs.head? = some ')' ∨ closers.contains (plainWord cs) then some ([], cs)
    else do
      let (c, rest) ← pipeline fuel cs
      let (c, rest) ← chain fuel c rest
      match rest with
      | '\n' :: _ | ';' :: _ | ')' :: _ | [] =>
        let (more, rest) ← script fuel rest
        return (c :: more, rest)
      | _ => none

end

/-- The commands of a script. -/
def parse? (source : List Char) : Option (List Command) :=
  match script (8 * source.length + 8) source with
  | some (commands, []) => some commands
  | _ => none

end DoxPages.Shell
