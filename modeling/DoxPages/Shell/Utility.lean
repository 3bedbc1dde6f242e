import DoxPages.Shell.Process
import DoxPages.Text.Numeral

/-!
# Utilities

The commands that a script can call by name. Each sets the status of the process.
-/

namespace DoxPages.Shell

/-! ## Texts with escapes -/

def escapeImages : List (Char × Nat) := [
  ('a', 7), ('b', 8), ('t', 9), ('n', 10), ('v', 11), ('f', 12), ('r', 13), ('\\', 92), ('"', 34)]

def isOctal (c : Char) : Bool := '0' ≤ c && c ≤ '7'

/-- The bytes of a text with escapes; octal ones have up to three digits. -/
def unescape : (fuel : Nat) → List Char → List UInt8
  | 0, _ => []
  | fuel + 1, cs =>
    match cs with
    | [] => []
    | '\\' :: c :: rest =>
      match escapeImages.lookup c with
      | some n => UInt8.ofNat n :: unescape fuel rest
      | none =>
        let ds := ((c :: rest).take 3).takeWhile isOctal
        match Text.inBase? 8 ds with
        | some n => UInt8.ofNat n :: unescape fuel ((c :: rest).drop ds.length)
        | none => 92 :: unescape fuel (c :: rest)
    | c :: rest => bytes (String.singleton c) ++ unescape fuel rest

def unescaped (cs : List Char) : List UInt8 := unescape (cs.length + 1) cs

/-- One pass through a format: what it writes, and the arguments that are left. -/
def format : List Char → List String → List UInt8 × List String
  | '%' :: c :: cs, args =>
    let arg := args.head?.getD ""
    let (image, args) :=
      if c = 's' then (bytes arg, args.tail)
      else if c = 'b' then (unescaped arg.toList, args.tail)
      else if c = 'd' ∨ c = 'i' then (bytes (toString ((Text.int? arg.toList).getD 0)), args.tail)
      else if c = '%' then (bytes "%", args)
      else (bytes (String.ofList ['%', c]), args)
    let (more, args) := format cs args
    (image ++ more, args)
  | '\\' :: cs, args =>
    let ds := (cs.take 3).takeWhile isOctal
    let n := if ds = [] then 1 else ds.length
    let (more, args) := format (cs.drop n) args
    (unescaped ('\\' :: cs.take n) ++ more, args)
  | c :: cs, args =>
    let (more, args) := format cs args
    (bytes (String.singleton c) ++ more, args)
  | [], args => ([], args)
termination_by cs => cs.length

/-- Passes through a format until no argument is left. -/
def formatAll : (fuel : Nat) → List Char → List String → List UInt8
  | 0, _, _ => []
  | fuel + 1, cs, args =>
    let (image, left) := format cs args
    if left = [] ∨ left.length = args.length then image else image ++ formatAll fuel cs left

/-! ## Tests -/

def compare? (op : String) (a b : Int) : Option Bool :=
  match op with
  | "-eq" => some (a = b)
  | "-ne" => some (a ≠ b)
  | "-lt" => some (a < b)
  | "-le" => some (a ≤ b)
  | "-gt" => some (b < a)
  | "-ge" => some (b ≤ a)
  | _ => none

def test? (p : Process) : List String → Option Bool
  | [] => some false
  | [s] => some (s ≠ "")
  | "!" :: rest => (test? p rest).map (!·)
  | ["-n", s] => some (s ≠ "")
  | ["-z", s] => some (s = "")
  | ["-e", path] => some (p.exists? path)
  | ["-d", path] => some (p.isDir path)
  | ["-f", path] => some (p.read? path).isSome
  | ["-s", path] => some ((p.read? path).any (· ≠ ""))
  | ["-x", path] => some (p.exists? path)
  | ["-r", path] => some (p.exists? path)
  | [a, "=", b] => some (a = b)
  | [a, "!=", b] => some (a ≠ b)
  | [a, op, b] => do compare? op (← Text.int? a.toList) (← Text.int? b.toList)
  | _ => none

/-! ## Files -/

/-- The options in front, and the other arguments. -/
def options (args : List String) : List Char × List String :=
  let isOption (s : String) := s.length > 1 && s.toList.head? == some '-'
  ((args.takeWhile isOption).flatMap fun s => s.toList.drop 1, args.dropWhile isOption)

def Process.write (p : Process) (path text : String) : Option Process :=
  (p.tree.write? p.dir (Path.ofString path) text).map fun tree => { p with tree }

/-- Removes an entry with all that is below it. -/
def remove (t : Tree) (loc : Location) : Tree := ⟨t.entries.filter fun e => !loc.isPrefixOf e.1⟩

namespace Process

def cat (p : Process) (path : String) : Process :=
  if path = "-" then { p with out := p.out ++ p.input }
  else match p.read? path with
    | some text => p.say text
    | none => p.fail s!"cat: {path}: No such file or directory"

def mkdir (p : Process) (parents : Bool) (path : String) : Process :=
  let q := Path.ofString path
  if parents then
    let (tree, done) := p.tree.makeDirs (if q.isAbsolute then [] else p.dir) q.parts
    let p := { p with tree }
    if done then p else p.fail s!"mkdir: cannot create directory '{path}'"
  else
    match p.locate? path with
    | some loc =>
      if (p.tree.entry? loc).isNone then { p with tree := p.tree.set loc .dir }
      else p.fail s!"mkdir: cannot create directory '{path}': File exists"
    | none => p.fail s!"mkdir: cannot create directory '{path}': No such file or directory"

def touch (p : Process) (path : String) : Process :=
  if p.exists? path then p
  else (p.write path "").getD (p.fail s!"touch: cannot touch '{path}'")

/-- Copies one entry to a location; a directory only with all that is below it. -/
def copyEntry (p : Process) (recursive : Bool) (source target : String) : Process :=
  let missing := p.fail s!"cp: cannot stat '{source}': No such file or directory"
  match p.locate? source with
  | none => missing
  | some loc =>
    match p.tree.entry? loc, p.locate? target with
    | none, _ => missing
    | _, none => p.fail s!"cp: cannot create '{target}'"
    | some (.file text executable), some copy =>
      if loc = copy then p.fail s!"cp: '{source}' and '{target}' are the same file"
      else { p with tree := p.tree.set copy (.file text executable) }
    | some .dir, some copy =>
      if !recursive then p.fail s!"cp: -r not specified; omitting directory '{source}'"
      else
        let below := p.tree.entries.filter fun e => loc.isPrefixOf e.1
        { p with tree := below.foldl (fun t e => t.set (copy ++ e.1.drop loc.length) e.2) p.tree }

def cp (p : Process) (recursive : Bool) (args : List String) : Process :=
  match args.getLast? with
  | none => p.fail "cp: missing file operand"
  | some target =>
    if args.length < 2 then p.fail s!"cp: missing destination file operand after '{target}'"
    else if p.isDir target then
      args.dropLast.foldl (fun p source =>
        p.copyEntry recursive source (target ++ "/" ++ (Path.ofString source).name)) p
    else match args with
      | [source, target] => p.copyEntry recursive source target
      | _ => p.fail s!"cp: target '{target}' is not a directory"

def ls (p : Process) (path : String) : Process :=
  match p.locate? path with
  | some loc =>
    if p.tree.isDir loc then
      p.say (Text.unlines ((names p.tree loc).filter fun name => name.toList.head? ≠ some '.'))
    else if (p.tree.entry? loc).isSome then p.say (path ++ "\n")
    else p.fail s!"ls: cannot access '{path}': No such file or directory" 2
  | none => p.fail s!"ls: cannot access '{path}': No such file or directory" 2

def rm (p : Process) (recursive force : Bool) (path : String) : Process :=
  match (p.locate? path).bind fun loc => (p.tree.entry? loc).map fun e => (loc, e) with
  | none => if force then p else p.fail s!"rm: cannot remove '{path}': No such file or directory"
  | some (loc, e) =>
    if e = .dir ∧ !recursive then p.fail s!"rm: cannot remove '{path}': Is a directory"
    else { p with tree := remove p.tree loc }

/-! ## The process itself -/

def cd (p : Process) (path : String) : Process :=
  match p.locate? path with
  | some loc =>
    if p.tree.isDir loc then { p with dir := loc } else p.fail s!"cd: can't cd to {path}" 2
  | none => p.fail s!"cd: can't cd to {path}" 2

def exit (p : Process) (status : Option String) : Process :=
  match status with
  | none => { p with ended := some p.status }
  | some s =>
    match s.toNat? with
    | some n => { p with ended := some ((n % 256 : Nat) : Int) }
    | none => { p.fail s!"exit: Illegal number: {s}" 2 with ended := some 2 }

def signals : List (String × Int) := [("HUP", 1), ("INT", 2), ("QUIT", 3), ("ABRT", 6),
  ("KILL", 9), ("SEGV", 11), ("PIPE", 13), ("ALRM", 14), ("TERM", 15)]

/-- Ends the process by a signal. -/
def kill (p : Process) (args : List String) : Process :=
  let named (s : String) : Option Int :=
    (signals.lookup s).orElse fun _ => (s.toNat?).map Int.ofNat
  let signal := match args with
    | "-s" :: s :: _ => named s
    | s :: _ => match s.toList with
      | '-' :: cs => named (String.ofList cs)
      | _ => some 15
    | [] => none
  match signal with
  | some n => { p with ended := some (-n) }
  | none => p.fail "kill: usage" 2

end Process

/-! ## The utilities by name -/

/-- Programs; a process of its own does nothing else. -/
def program? (name : String) (args : List String) (p : Process) : Option Process :=
  let (os, rest) := options args
  let p := p.succeed
  match name with
  | "true" | "sleep" => some p
  | "false" => some { p with status := 1 }
  | "echo" =>
    let (args, final) := match args with
      | "-n" :: args => (args, "")
      | args => (args, "\n")
    some { p with out := p.out ++ unescaped (Text.joinWith " " args).toList ++ bytes final }
  | "printf" =>
    match args with
    | f :: args => some { p with out := p.out ++ formatAll (args.length + 1) f.toList args }
    | [] => some (p.fail "printf: usage: printf format [arg ...]" 2)
  | "cat" => some ((if args = [] then ["-"] else args).foldl Process.cat p)
  | "basename" =>
    match rest with
    | path :: suffix =>
      let name := if (Path.ofString path).parts = [] then path else (Path.ofString path).name
      let ext := (suffix.head?.getD "").toList
      some (p.say ((if ext ≠ name.toList ∧ ext.isSuffixOf name.toList then
        String.ofList (name.toList.take (name.length - ext.length)) else name) ++ "\n"))
    | [] => some (p.fail "basename: missing operand")
  | "dirname" =>
    match rest with
    | path :: _ => some (p.say ((Path.ofString path).parent.toString ++ "\n"))
    | [] => some (p.fail "dirname: missing operand")
  | "pwd" => some (p.say (p.value "PWD" ++ "\n"))
  | "ls" => some ((if rest = [] then ["."] else rest).foldl Process.ls p)
  | "mkdir" => some (rest.foldl (fun p path => p.mkdir (os.contains 'p') path) p)
  | "touch" => some (rest.foldl Process.touch p)
  | "cp" => some (p.cp (os.any fun c => c = 'r' ∨ c = 'R' ∨ c = 'a') rest)
  | "rm" => some (rest.foldl (fun p path => p.rm (os.contains 'r') (os.contains 'f') path) p)
  | "test" =>
    some { p with status := match test? p args with
      | some true => 0
      | some false => 1
      | none => 2 }
  | "[" =>
    some { p with status := match test? p args.dropLast with
      | some true => 0
      | some false => 1
      | none => 2 }
  | "kill" => some (p.kill args)
  | _ => none

/-- Commands that act on the process that calls them. -/
def builtin? (name : String) (args : List String) (p : Process) : Option Process :=
  match name with
  | ":" => some p.succeed
  | "exit" => some (p.exit args.head?)
  | "cd" => some (p.succeed.cd (args.head?.getD "/"))
  | "shift" => some { p.succeed with args := p.args.drop ((args.head?.bind String.toNat?).getD 1) }
  | "set" =>
    let (os, _) := options args
    some { p.succeed with strict := p.strict || os.contains 'e' }
  | "export" =>
    some (args.foldl (fun p s =>
      match Text.splitChar '=' s.toList with
      | name :: first :: more =>
        let value := ['='].intercalate (first :: more)
        { p with vars := Assoc.put (String.ofList name) (String.ofList value) p.vars }
      | _ => p) p.succeed)
  | _ => none

end DoxPages.Shell
