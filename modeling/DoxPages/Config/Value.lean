import DoxPages.Assoc
import DoxPages.Number.Shortest
import DoxPages.Text.Quoted

/-!
# Configuration values

Scalars, lists and mappings. The keys of a mapping are scalars; two keys are the
same if they are equal as numbers, where true and false count as one and zero, or
else equal as they stand. A mapping keeps the order of its entries and the first
spelling of each key.
-/

namespace DoxPages

structure Date where
  year : Nat
  month : Nat
  day : Nat
  deriving DecidableEq, Repr, Inhabited

/-- A time of day on a date; the offset from universal time is in seconds, if known. -/
structure Timestamp where
  date : Date
  hour : Nat := 0
  minute : Nat := 0
  second : Nat := 0
  microsecond : Nat := 0
  offset : Option Int := none
  deriving DecidableEq, Repr, Inhabited

inductive Scalar where
  | null
  | bool (b : Bool)
  | int (n : Int)
  | float (x : Binary64)
  | string (s : String)
  | date (d : Date)
  | timestamp (t : Timestamp)
  | bytes (bs : List UInt8)
  deriving DecidableEq, Repr, Inhabited

inductive Value where
  | scalar (s : Scalar)
  | list (items : List Value)
  | mapping (entries : List (Scalar × Value))
  | set (members : List Scalar)
  | pair (first second : Value)
  deriving Repr, Inhabited

abbrev Settings := List (Scalar × Value)

def digits (width n : Nat) : String :=
  let cs := Nat.toDigits 10 n
  String.ofList (List.replicate (width - cs.length) '0' ++ cs)

namespace Date

def text (d : Date) : String := digits 4 d.year ++ "-" ++ digits 2 d.month ++ "-" ++ digits 2 d.day

def isLeap (year : Nat) : Bool := year % 4 == 0 && (year % 100 != 0 || year % 400 == 0)

def daysIn (year month : Nat) : Nat :=
  if month = 2 then if isLeap year then 29 else 28
  else if month = 4 ∨ month = 6 ∨ month = 9 ∨ month = 11 then 30
  else 31

def isValid (d : Date) : Bool :=
  1 ≤ d.year && d.year ≤ 9999 && 1 ≤ d.month && d.month ≤ 12
    && 1 ≤ d.day && d.day ≤ daysIn d.year d.month

/-- Days since the first day of the year one. -/
def ordinal (d : Date) : Nat :=
  let y := d.year - 1
  let past := (List.range (d.month - 1)).map fun m => daysIn d.year (m + 1)
  365 * y + y / 4 - y / 100 + y / 400 + past.foldl (· + ·) 0 + d.day

end Date

namespace Timestamp

def offsetText (offset : Int) : String :=
  let n := offset.natAbs
  (if offset < 0 then "-" else "+") ++ digits 2 (n / 3600) ++ ":" ++ digits 2 (n / 60 % 60)
    ++ if n % 60 = 0 then "" else ":" ++ digits 2 (n % 60)

/-- Date and time with a separator between them. -/
def text (separator : String) (t : Timestamp) : String :=
  t.date.text ++ separator ++ digits 2 t.hour ++ ":" ++ digits 2 t.minute ++ ":"
    ++ digits 2 t.second ++ (if t.microsecond = 0 then "" else "." ++ digits 6 t.microsecond)
    ++ (t.offset.map offsetText).getD ""

def isValid (t : Timestamp) : Bool :=
  t.date.isValid && t.hour < 24 && t.minute < 60 && t.second < 60

/-- Microseconds of universal time for a known offset. -/
def instant (t : Timestamp) (offset : Int) : Int :=
  ((((t.date.ordinal * 24 + t.hour) * 60 + t.minute) * 60 + t.second : Nat) - offset) * 1000000
    + t.microsecond

end Timestamp

namespace Scalar

/-- What a key is compared by. -/
inductive Identity where
  | number (n : Int)
  | instant (microseconds : Int)
  | other (s : Scalar)
  deriving DecidableEq

def identity : Scalar → Identity
  | bool b => .number (if b then 1 else 0)
  | int n => .number n
  | float x =>
    match x.int? with
    | some n => .number n
    | none => .other (float x)
  | timestamp t =>
    match t.offset with
    | some offset => .instant (t.instant offset)
    | none => .other (timestamp t)
  | s => .other s

instance : BEq Scalar := ⟨fun a b => a.identity = b.identity⟩

theorem beq_iff {a b : Scalar} : (a == b) = true ↔ a.identity = b.identity :=
  decide_eq_true_iff

instance : EquivBEq Scalar where
  rfl := beq_iff.2 rfl
  symm h := beq_iff.2 (beq_iff.1 h).symm
  trans h k := beq_iff.2 ((beq_iff.1 h).trans (beq_iff.1 k))

def bytesText (bs : List UInt8) : String :=
  let cs := bs.map fun b => Char.ofNat b.toNat
  let q := Text.quoteFor cs
  let escape c :=
    if c.toNat < 128 then Text.escapeChar q c else ['\\', 'x'] ++ Text.hex 2 c.toNat
  String.ofList ('b' :: q :: cs.flatMap escape ++ [q])

/-- A scalar as it appears inside a message. -/
def text : Scalar → String
  | null => "None"
  | bool true => "True"
  | bool false => "False"
  | int n => toString n
  | float x => x.text
  | string s => s
  | date d => d.text
  | timestamp t => t.text " "
  | bytes bs => bytesText bs

/-- A scalar as it appears inside a list or a mapping. -/
def literal : Scalar → String
  | string s => Text.onChars Text.quoted s
  | s => s.text

def string? : Scalar → Option String
  | string s => some s
  | _ => none

def typeName : Scalar → String
  | null => "null"
  | bool _ => "bool"
  | int _ => "int"
  | float _ => "float"
  | string _ => "string"
  | date _ => "date"
  | timestamp _ => "datetime"
  | bytes _ => "bytes"

/-- Scalars that count as absent where a setting is optional. -/
def isBlank : Scalar → Bool
  | null => true
  | bool b => !b
  | int n => n == 0
  | float x => x.int? == some 0
  | string s => s.isEmpty
  | bytes bs => bs.isEmpty
  | _ => false

end Scalar

namespace Value

/-- The name of a value's type as messages give it. -/
def typeName : Value → String
  | scalar s => s.typeName
  | list _ => "list"
  | mapping _ => "mapping"
  | set _ => "set"
  | pair .. => "tuple"

def isString : Value → Bool
  | scalar (.string _) => true
  | _ => false

def string? : Value → Option String
  | scalar s => s.string?
  | _ => none

def null : Value := scalar .null

def string (s : String) : Value := scalar (.string s)

def isNull : Value → Bool
  | scalar .null => true
  | _ => false

/-- Values that count as absent where a setting is optional. -/
def isBlank : Value → Bool
  | scalar s => s.isBlank
  | list items => items.isEmpty
  | mapping entries => entries.isEmpty
  | set members => members.isEmpty
  | pair .. => false

/-- What a value holds one by one: the keys of a mapping, the characters of a text. -/
def items? : Value → Option (List Value)
  | list items => some items
  | mapping es => some (es.map fun e => scalar e.1)
  | set members => some (members.map scalar)
  | pair a b => some [a, b]
  | scalar (.string s) => some (s.toList.map fun c => scalar (.string (String.singleton c)))
  | scalar (.bytes bs) => some (bs.map fun b => scalar (.int b.toNat))
  | scalar _ => none

/-- Whether a value can be a key. -/
def isKey : Value → Bool
  | scalar _ => true
  | pair a b => a.isKey && b.isKey
  | list _ | mapping _ | set _ => false

/-- The texts in a list of strings. -/
def strings : Value → List String
  | list items => items.filterMap string?
  | _ => []

mutual

/-- A value as it appears inside a list or a mapping. -/
def literal : Value → String
  | scalar s => s.literal
  | list items => "[" ++ Text.joinWith ", " (literals items) ++ "]"
  | mapping es => "\x7b" ++ Text.joinWith ", " (entryLiterals es) ++ "\x7d"
  | set [] => "set()"
  | set members => "\x7b" ++ Text.joinWith ", " (members.map Scalar.literal) ++ "\x7d"
  | pair a b => "(" ++ literal a ++ ", " ++ literal b ++ ")"

def literals : List Value → List String
  | [] => []
  | v :: vs => literal v :: literals vs

def entryLiterals : List (Scalar × Value) → List String
  | [] => []
  | (k, v) :: es => (k.literal ++ ": " ++ literal v) :: entryLiterals es

end

/-- A value as it appears inside a message: a string stands there without quotes. -/
def text : Value → String
  | scalar s => s.text
  | v => v.literal

end Value

namespace Settings

def get? (s : Settings) (key : String) : Option Value := s.lookup (.string key)

/-- The texts under names; what is under another key or is no text is left out. -/
def texts (s : Settings) : List (String × String) :=
  s.filterMap fun e => do return (← e.1.string?, ← e.2.string?)

/-- The value of a setting; a setting that is blank counts as absent. -/
def given? (s : Settings) (key : String) : Option Value :=
  (get? s key).filter fun v => !v.isBlank

end Settings

end DoxPages
