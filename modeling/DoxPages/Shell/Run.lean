import DoxPages.Conversion.Generator
import DoxPages.Shell.Parser
import DoxPages.Shell.Utility

/-!
# Running programs

Programs are the utilities, which every path of a system directory leads to, and
executable files of the tree whose first line names a program to run them with.
-/

namespace DoxPages.Shell

/-- Where the output for a stream goes. -/
inductive Sink where
  | out
  | err
  | file (path : String)
  | nowhere
  deriving DecidableEq, Repr

/-- The sinks of the two outputs. -/
structure Sinks where
  out : Sink := .out
  err : Sink := .err

def Sinks.of (s : Sinks) (stream : Nat) : Sink := if stream = 2 then s.err else s.out

def Sinks.put (s : Sinks) (stream : Nat) (sink : Sink) : Sinks :=
  if stream = 2 then { s with err := sink } else { s with out := sink }

def Process.deliver (p : Process) (sink : Sink) (bs : List UInt8) : Process :=
  match sink with
  | .out => { p with out := p.out ++ bs }
  | .err => { p with err := p.err ++ bs }
  | .file path => (p.write path ((p.read? path).getD "" ++ ofBytes bs)).getD p
  | .nowhere => p

/-- The file that takes everything and holds nothing. -/
def nullFile : String := "/dev/null"

/-- What a redirection changes; there is no such process if a file cannot be used. -/
def redirect (direction : Direction) (stream : Nat) (word : String) (p : Process) (s : Sinks) :
    Option (Process × Sinks) :=
  match direction with
  | .read =>
    if word = nullFile then some ({ p with input := [] }, s)
    else (p.read? word).map fun text => ({ p with input := bytes text }, s)
  | .here => some ({ p with input := bytes word }, s)
  | .duplicate =>
    match word.toNat? with
    | some n => some (p, s.put stream (s.of n))
    | none => none
  | .write | .append =>
    if word = nullFile then some (p, s.put stream .nowhere)
    else
      let kept := if direction = .append then (p.read? word).getD "" else ""
      (p.write word kept).map fun p => (p, s.put stream (.file word))

def directories : List String := ["/bin", "/usr/bin"]

/-- The name of a program that is no file of the tree. -/
def systemName? (word : String) : Option String :=
  if '/' ∉ word.toList then some word
  else
    let p := Path.ofString word
    if directories.contains p.parent.toString then some p.name else none

def shells : List String := ["sh", "dash", "bash"]

/-- The program and its arguments that the first line of a script names. -/
def interpreter? (source : String) : Option (List String) :=
  match source.toList with
  | '#' :: '!' :: cs =>
    let line := Text.trim isBlankChar (cs.takeWhile (· ≠ '\n'))
    let program := line.takeWhile fun c => !isBlankChar c
    let arg := Text.trim isBlankChar (line.drop program.length)
    if program = [] then none
    else some (String.ofList program :: if arg = [] then [] else [String.ofList arg])
  | _ => none

mutual

/-- Expands a word. -/
def expand : (fuel : Nat) → List Piece → Process → List Atom × Process
  | 0, _, p => ([], p)
  | _, [], p => ([], p)
  | fuel + 1, piece :: ps, p =>
    let (as, p) := match piece with
      | .text cs quoted => (if cs = [] then [Atom.mark] else cs.map (.char · quoted), p)
      | .param "@" quoted => (List.intercalate [.cut] (p.args.map (atoms quoted)), p)
      | .param name quoted => (atoms quoted (p.value name), p)
      | .output script quoted =>
        let q := runAll fuel script { p with out := [] }
        (atoms quoted (trimNewlines (ofBytes q.out)),
          { p with tree := q.tree, err := q.err, status := (q.ended.getD q.status).toNat })
    let (more, p) := expand fuel ps p
    (as ++ more, p)

/-- Expands a word into one text. -/
def expandText (fuel : Nat) (w : List Piece) (p : Process) : String × Process :=
  match fuel with
  | 0 => ("", p)
  | fuel + 1 =>
    let (as, p) := expand fuel w p
    (String.ofList (as.flatMap fun a =>
      match a with
      | .char c _ => [c]
      | .cut => [' ']
      | .mark => []), p)

/-- Expands words into fields. -/
def expandAll : (fuel : Nat) → List (List Piece) → Process → List String × Process
  | 0, _, p => ([], p)
  | _, [], p => ([], p)
  | fuel + 1, w :: ws, p =>
    let (as, p) := expand fuel w p
    let texts := (fields as).flatMap (globbed p)
    let (more, p) := expandAll fuel ws p
    (texts ++ more, p)

def assign : (fuel : Nat) → List (String × List Piece) → Process → Process
  | 0, _, p => p
  | _, [], p => p
  | fuel + 1, (name, w) :: rest, p =>
    let (value, p) := expandText fuel w p
    assign fuel rest { p with vars := Assoc.put name value p.vars }

def redirectAll : (fuel : Nat) → List Redirect → Process → Sinks → Option (Process × Sinks)
  | 0, _, p, s => some (p, s)
  | _, [], p, s => some (p, s)
  | fuel + 1, .mk stream direction w :: rest, p, s => do
    let (word, p) := expandText fuel w p
    let (p, s) ← redirect direction stream word p s
    redirectAll fuel rest p s

/-- Runs a command that is given by its words. -/
def call : (fuel : Nat) → List String → Process → Process
  | 0, _, p => p
  | _, [], p => p.succeed
  | fuel + 1, "exec" :: words, p =>
    let p := call fuel words p
    if words = [] then p else { p with ended := some (p.ended.getD p.status) }
  | fuel + 1, name :: args, p =>
    match builtin? name args p, (systemName? name).bind fun n => program? n args p with
    | some q, _ => q
    | none, some q => q
    | none, none =>
      match start? fuel name args p with
      | some q =>
        { p with tree := q.tree, out := p.out ++ q.out, err := p.err ++ q.err
                 status := (q.ended.getD q.status).toNat }
      | none => p.fail s!"{p.name}: {name}: not found" 127

/-- Runs a program with a process of its own in the directory of another one. -/
def start? : (fuel : Nat) → String → List String → Process → Option Process
  | 0, _, _, _ => none
  | fuel + 1, name, args, p =>
    let fresh : Process := { tree := p.tree, dir := p.dir, name, args, input := p.input }
    match systemName? name with
    | some n =>
      if shells.contains n then
        match args with
        | "-c" :: source :: args =>
          interpret fuel source { fresh with name := args.head?.getD n, args := args.tail }
        | script :: args =>
          match p.read? script with
          | none => some (fresh.fail s!"{n}: 0: cannot open {script}: No such file" 2)
          | some source => interpret fuel source { fresh with name := script, args }
        | [] => some fresh
      else program? n args fresh
    | none =>
      match p.tree.find? p.dir (Path.ofString name) with
      | some (.file source true) => do
        let words ← interpreter? source
        let words := words ++ name :: args
        let words := if words.head?.bind systemName? = some "env" then words.tail else words
        match words with
        | [] => none
        | program :: args =>
          if (systemName? program).isSome then start? fuel program args fresh else none
      | _ => none

/-- Runs the text of a script. -/
def interpret : (fuel : Nat) → (source : String) → Process → Option Process
  | 0, _, _ => none
  | fuel + 1, source, p =>
    match parse? source.toList with
    | none => some (p.fail s!"{p.name}: Syntax error" 2)
    | some commands => some (runAll fuel commands p)

def run : (fuel : Nat) → Command → Process → Process
  | 0, _, p => p
  | fuel + 1, c, p =>
    let lenient (c : Command) (p : Process) : Process :=
      { run fuel c { p with strict := false } with strict := p.strict }
    match c with
    | .simple settings words redirects =>
      let (words, p) := expandAll fuel words p
      let p := assign fuel settings (if words = [] then p.succeed else p)
      match redirectAll fuel redirects p {} with
      | none => p.fail s!"{p.name}: cannot open file" 2
      | some (q, sinks) =>
        let q := call fuel words { q with out := [], err := [] }
        let done := { q with out := p.out, err := p.err, input := p.input }
        (done.deliver sinks.out q.out).deliver sinks.err q.err
    | .both c d =>
      let p := lenient c p
      if p.ended.isSome ∨ p.status ≠ 0 then p else run fuel d p
    | .either c d =>
      let p := lenient c p
      if p.ended.isSome ∨ p.status = 0 then p else run fuel d p
    | .negate c =>
      let p := lenient c p
      { p with status := if p.status = 0 then 1 else 0 }
    | .pipe c d =>
      let q := run fuel c { p with out := [] }
      let r := run fuel d { p with tree := q.tree, err := q.err, input := q.out }
      { p with tree := r.tree, out := r.out, err := r.err
               status := (r.ended.getD r.status).toNat }
    | .choice test thens elses =>
      let p := { runAll fuel test { p with strict := false } with strict := p.strict }
      if p.ended.isSome then p
      else if p.status = 0 then runAll fuel thens p
      else runAll fuel elses p.succeed
    | .each name words body =>
      let (values, p) := expandAll fuel words p
      values.foldl (fun p value =>
        if p.ended.isSome then p
        else runAll fuel body { p with vars := Assoc.put name value p.vars }) p.succeed
    | .group body => runAll fuel body p

/-- Runs commands until the process ends. -/
def runAll : (fuel : Nat) → List Command → Process → Process
  | 0, _, p => p
  | _, [], p => p
  | fuel + 1, c :: cs, p =>
    let p := run fuel c p
    let fails := p.strict && p.status != 0 && match c with
      | .simple .. | .pipe .. => true
      | _ => false
    if p.ended.isSome then p
    else if fails then { p with ended := some (p.status : Int) }
    else runAll fuel cs p

end

/-- How deep programs may call one another and commands may be nested. -/
def depth : Nat := 10000

/-- Programs in a directory that has to be there. -/
def programs : Programs := fun tree dir command =>
  match command, tree.locate? [] dir with
  | name :: args, some loc =>
    if !tree.isDir loc then none
    else (start? depth name args { tree, dir := loc, name := "sh", args := [] }).map fun p =>
      let text (bs : List UInt8) := Text.onChars Text.normalizeNewlines (ofBytes bs)
      { tree := p.tree, status := p.ended.getD p.status, out := text p.out, err := text p.err }
  | _, _ => none

end DoxPages.Shell
