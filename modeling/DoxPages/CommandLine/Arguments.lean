import DoxPages.Files.Path
import DoxPages.Text.Numeral

/-!
# Command line arguments

Options start with a dash and may be shortened as long as only one is meant. The
value of an option is the next argument, unless that looks like an option, or
stands behind an equals sign. Nothing else may be on the line.
-/

namespace DoxPages.CommandLine

/-- What a line asks for. -/
structure Arguments where
  config : Path
  output : Option Path := none
  skipGenerator : Bool := false
  generator : String := "doxygen"
  copyTo : Option Path := none
  quiet : Bool := false
  verbose : Bool := false
  deriving DecidableEq, Repr, Inhabited

/-- Why a line is not carried out. -/
inductive Refusal where
  | help
  | ambiguous (word : String) (options : List String)
  | noValue (option : String)
  | unwantedValue (option value : String)
  | conflict (option other : String)
  | noConfig
  | unknown (words : List String)
  deriving DecidableEq, Repr

namespace Refusal

/-- The exit status of a refusal. -/
def status : Refusal → Nat
  | help => 0
  | _ => 2

def message : Refusal → String
  | help => "usage: --config CONFIG [--output OUTPUT] [--skip-doxygen] [--doxygen DOXYGEN] " ++
    "[--copy-to DIRECTORY] [--quiet | --verbose]"
  | ambiguous word options => s!"{word} could be " ++ Text.joinWith ", " options
  | noValue option => s!"{option}: a value is missing"
  | unwantedValue option value => s!"{option} takes no value: {value}"
  | conflict option other => s!"{option} cannot be used with {other}"
  | noConfig => "--config is required"
  | unknown words => "unknown arguments: " ++ Text.joinWith " " words

end Refusal

inductive Flag where
  | help | config | output | skipGenerator | generator | copyTo | quiet | verbose
  deriving DecidableEq, Repr

def optionNames : List (String × Flag) := [
  ("-h", .help), ("--help", .help), ("--config", .config), ("--output", .output),
  ("--skip-doxygen", .skipGenerator), ("--doxygen", .generator), ("--copy-to", .copyTo),
  ("--quiet", .quiet), ("--verbose", .verbose)]

namespace Flag

def name (f : Flag) : String :=
  ((optionNames.reverse.find? fun o => o.2 = f).map Prod.fst).getD ""

def takesValue : Flag → Bool
  | config | output | generator | copyTo => true
  | help | skipGenerator | quiet | verbose => false

end Flag

/-- An option that a word may mean, with the value written into the word. -/
abbrev Meaning := Flag × Option String

/-- A word on the line: a value, or an option with all that it may mean. -/
inductive Word where
  | value
  | option (meanings : List Meaning)
  deriving Repr

/-- What stands before and behind the first equals sign, if there is one. -/
def splitValue (cs : List Char) : List Char × Option String :=
  match cs.dropWhile (· ≠ '=') with
  | [] => (cs, none)
  | _ :: value => (cs.takeWhile (· ≠ '='), some (String.ofList value))

/-- The options that a word may shorten. -/
def meanings (cs : List Char) : List Meaning :=
  match cs with
  | '-' :: '-' :: _ =>
    let (start, value) := splitValue cs
    (optionNames.filter fun o => start.isPrefixOf o.1.toList).map fun o => (o.2, value)
  | '-' :: c :: rest =>
    optionNames.filterMap fun (name, f) =>
      if name.toList = ['-', c] then some (f, some (String.ofList rest)) else none
  | _ => []

/-- A dash and digits, of which the last ones may stand behind a point. -/
def isNegativeNumber : List Char → Bool
  | '-' :: cs =>
    let isDigit c := (Text.digit? c).isSome
    match Text.splitChar '.' cs with
    | [whole] => whole ≠ [] && whole.all isDigit
    | [whole, fraction] => fraction ≠ [] && (whole ++ fraction).all isDigit
    | _ => false
  | _ => false

def Word.ofString (s : String) : Word :=
  let cs := s.toList
  if cs.head? ≠ some '-' then value
  else match optionNames.lookup s with
    | some f => option [(f, none)]
    | none =>
      if cs.length = 1 then value
      else
        let (start, written) := splitValue cs
        match written, optionNames.lookup (String.ofList start) with
        | some written, some f => option [(f, some written)]
        | _, _ =>
          match meanings cs with
          | [] => if isNegativeNumber cs ∨ ' ' ∈ cs then value else option []
          | ms => option ms

/-! ## Reading a line -/

/-- What has been read of a line. -/
structure Reading where
  config : Option Path := none
  rest : Arguments
  leftover : List String := []

namespace Reading

def setValue (r : Reading) (f : Flag) (value : String) : Reading :=
  match f with
  | .config => { r with config := some (Path.ofString value) }
  | .output => { r with rest := { r.rest with output := some (Path.ofString value) } }
  | .generator => { r with rest := { r.rest with generator := value } }
  | .copyTo => { r with rest := { r.rest with copyTo := some (Path.ofString value) } }
  | _ => r

def setFlag (r : Reading) : Flag → Except Refusal Reading
  | .help => .error .help
  | .quiet =>
    if r.rest.verbose then .error (.conflict "--quiet" "--verbose")
    else .ok { r with rest := { r.rest with quiet := true } }
  | .verbose =>
    if r.rest.quiet then .error (.conflict "--verbose" "--quiet")
    else .ok { r with rest := { r.rest with verbose := true } }
  | .skipGenerator => .ok { r with rest := { r.rest with skipGenerator := true } }
  | _ => .ok r

/-- An option that takes no value has one in its word. Behind a single dash that may be more
options, and the first of them is carried out whatever the last one is. -/
def surplus (f : Flag) (word value : String) : Refusal :=
  match (word.toList.drop 1).dropWhile (· = 'h') with
  | '-' :: _ | '=' :: _ => .unwantedValue f.name value
  | _ => .help

/-- Reads words in order. -/
def words (r : Reading) : List String → Except Refusal Reading
  | [] => .ok r
  | "--" :: ws => .ok { r with leftover := r.leftover ++ "--" :: ws }
  | w :: ws =>
    match Word.ofString w with
    | .value | .option [] => { r with leftover := r.leftover ++ [w] }.words ws
    | .option [(f, some value)] =>
      if f.takesValue then (r.setValue f value).words ws else .error (surplus f w value)
    | .option [(f, none)] =>
      if f.takesValue then
        match ws with
        | [] => .error (.noValue f.name)
        | value :: ws =>
          match value, Word.ofString value with
          | "--", _ => .error (.noValue f.name)
          | _, .value => (r.setValue f value).words ws
          | _, .option _ => .error (.noValue f.name)
      else do (← r.setFlag f).words ws
    | .option ms => .error (.ambiguous w (ms.map fun m => m.1.name))

end Reading

/-- The variable that names the directory for copies where the line does not. -/
def copyVariable : String := "DOCUSAURUS_DOCS"

/-- The first word that may mean more than one option; every word counts, also a value. -/
def ambiguity (line : List String) : Option Refusal :=
  (line.takeWhile (· ≠ "--")).findSome? fun w =>
    match Word.ofString w with
    | .option (m :: n :: ms) => some (.ambiguous w ((m :: n :: ms).map fun m => m.1.name))
    | _ => none

/-- Reads a line; `docs` is the value of the variable for copies. -/
def Arguments.ofWords (docs : Option String) (line : List String) : Except Refusal Arguments := do
  if let some refusal := ambiguity line then throw refusal
  let copyTo := (docs.filter (· ≠ "")).map Path.ofString
  let r ← ({ rest := { config := default, copyTo } } : Reading).words line
  match r.config, r.leftover with
  | none, _ => .error .noConfig
  | some config, [] => return { r.rest with config }
  | some _, leftover => .error (.unknown leftover)

end DoxPages.CommandLine
