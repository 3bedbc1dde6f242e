import DoxPages.Text.Numeral

/-!
# Types of YAML nodes

A tag names the type of a node. A plain scalar without a tag has the type that
its text has the form of; all other text is a string.
-/

namespace DoxPages.Yaml

inductive Tag where
  | null | bool | int | float | binary | timestamp | string
  | sequence | mapping | set | orderedMapping | pairs
  /-- The key whose value is merged into a mapping. -/
  | merge
  /-- The key of the value that stands for a mapping. -/
  | default
  | other
  deriving DecidableEq, Repr, Inhabited

def coreUri : String := "tag:yaml.org,2002:"

def Tag.ofUri (uri : String) : Tag :=
  let names := [("null", null), ("bool", bool), ("int", int), ("float", float),
    ("binary", binary), ("timestamp", timestamp), ("str", string), ("seq", sequence),
    ("map", mapping), ("set", set), ("omap", orderedMapping), ("pairs", pairs),
    ("merge", merge), ("value", default)].map fun (name, tag) => (coreUri ++ name, tag)
  (names.lookup uri).getD other

/-! ## Forms of plain scalars -/

def trueWords : List String := ["yes", "Yes", "YES", "true", "True", "TRUE", "on", "On", "ON"]

def falseWords : List String := ["no", "No", "NO", "false", "False", "FALSE", "off", "Off", "OFF"]

def nullWords : List String := ["", "~", "null", "Null", "NULL"]

/-- Whether a text is not empty and of the characters of a class. -/
def allOf (p : Char → Bool) (cs : List Char) : Bool := cs ≠ [] && cs.all p

def isDigitOrBar (c : Char) : Bool := c.isDigit || c == '_'

def dropSign : List Char → List Char
  | '-' :: cs => cs
  | '+' :: cs => cs
  | cs => cs

/-- A digit that is not to be left out, and digits and underscores behind it. -/
def isDigits : List Char → Bool
  | c :: cs => c.isDigit && cs.all isDigitOrBar
  | [] => false

/-- A number below sixty in one or two digits. -/
def isSixtieth : List Char → Bool
  | [a] => a.isDigit
  | [a, b] => a.isDigit && a ≤ '5' && b.isDigit
  | _ => false

def isInt (cs : List Char) : Bool :=
  match dropSign cs with
  | '0' :: rest => rest = [] || match rest with
    | 'b' :: ds => allOf (fun c => c == '0' || c == '1' || c == '_') ds
    | 'x' :: ds => allOf (fun c => (Text.hexDigit? c).isSome || c == '_') ds
    | ds => ds.all fun c => ('0' ≤ c && c ≤ '7') || c == '_'
  | ds => match Text.splitChar ':' ds with
    | head :: sixtieths => isDigits head && sixtieths.all isSixtieth
    | [] => false

/-- Nothing, or an exponent with its sign. -/
def isExponent : List Char → Bool
  | [] => true
  | e :: s :: ds => (e == 'e' || e == 'E') && (s == '+' || s == '-') && allOf Char.isDigit ds
  | _ => false

/-- A fraction behind its point, with an exponent. -/
def isFraction (cs : List Char) : Bool := isExponent (cs.dropWhile isDigitOrBar)

def isFloat (cs : List Char) : Bool :=
  let unsigned := dropSign cs
  let whole := unsigned.takeWhile (· ≠ '.')
  match unsigned.dropWhile (· ≠ '.') with
  | [] => false
  | _ :: fraction =>
    match Text.splitChar ':' whole with
    | [[]] =>
      ["inf", "Inf", "INF"].contains (String.ofList fraction)
        || (cs = unsigned && (["nan", "NaN", "NAN"].contains (String.ofList fraction)
          || (fraction.head?.any Char.isDigit && isFraction fraction)))
    | [head] => isDigits head && isFraction fraction
    | head :: sixtieths =>
      isDigits head && sixtieths.all isSixtieth && fraction.all isDigitOrBar
    | [] => false

end DoxPages.Yaml
