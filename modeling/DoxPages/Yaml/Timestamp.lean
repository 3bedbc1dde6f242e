import DoxPages.Config.Value

/-!
# Times in YAML texts

`2001-12-14 21:59:43.10 -5:30`: a date, and behind it a time of day with an
offset. The parts may have one digit where they are unambiguous.
-/

namespace DoxPages.Yaml.Moment

/-- A number of `least` to `most` digits, as many as there are. -/
def number? (least most : Nat) (cs : List Char) : Option (Nat × List Char) :=
  let run := (cs.take most).takeWhile Char.isDigit
  if run.length < least then none
  else some (run.foldl (fun n d => 10 * n + (d.toNat - '0'.toNat)) 0, cs.drop run.length)

def char? (c : Char) : List Char → Option (List Char)
  | d :: cs => if c = d then some cs else none
  | [] => none

def skipBlanks (cs : List Char) : List Char := cs.dropWhile fun c => c == ' ' || c == '\t'

def date? (cs : List Char) : Option (Date × List Char) := do
  let (year, cs) ← number? 4 4 cs
  let (month, cs) ← number? 1 2 (← char? '-' cs)
  let (day, cs) ← number? 1 2 (← char? '-' cs)
  return (⟨year, month, day⟩, cs)

/-- What separates a time of day from its date. -/
def timeSeparator? : List Char → Option (List Char)
  | c :: cs =>
    if c = 'T' ∨ c = 't' then some cs
    else if c = ' ' ∨ c = '\t' then some (skipBlanks cs)
    else none
  | [] => none

/-- The first six digits of a fraction as microseconds. -/
def fraction (cs : List Char) : Nat × List Char :=
  match cs with
  | '.' :: rest =>
    let ds := (rest.takeWhile Char.isDigit).take 6
    (ds.foldl (fun n d => 10 * n + (d.toNat - '0'.toNat)) 0 * Nat.pow 10 (6 - ds.length),
      rest.dropWhile Char.isDigit)
  | _ => (0, cs)

/-- The offset at the end of a time, in seconds; none if the text ends here. -/
def offset? (cs : List Char) : Option (Option Int) :=
  if cs = [] then some none
  else match skipBlanks cs with
    | ['Z'] => some (some 0)
    | sign :: rest => do
      if sign ≠ '+' ∧ sign ≠ '-' then none
      let (hours, rest) ← number? 1 2 rest
      let minutes ← match rest with
        | [] => some 0
        | _ => match ← (char? ':' rest).bind (number? 2 2) with
          | (minutes, []) => some minutes
          | _ => none
      let seconds : Int := (hours * 60 + minutes) * 60
      return some (if sign = '-' then -seconds else seconds)
    | [] => none

/-- A date or a time as it is written, whether or not there is such a day. -/
def read? (cs : List Char) : Option (Date ⊕ Timestamp) := do
  let (date, cs) ← date? cs
  if cs = [] then return .inl date
  let (hour, cs) ← number? 1 2 (← timeSeparator? cs)
  let (minute, cs) ← number? 2 2 (← char? ':' cs)
  let (second, cs) ← number? 2 2 (← char? ':' cs)
  let (microsecond, cs) := fraction cs
  let offset ← offset? cs
  return .inr { date, hour, minute, second, microsecond, offset }

/-- Whether a plain scalar has the form of a date, in ten characters, or of a time. -/
def isMoment (cs : List Char) : Bool :=
  match read? cs with
  | some (.inl _) => cs.length == 10
  | some (.inr _) => true
  | none => false

/-- The day or time that a text names. -/
def value? (cs : List Char) : Option Scalar :=
  match read? cs with
  | some (.inl date) => if date.isValid then some (.date date) else none
  | some (.inr t) =>
    if t.isValid ∧ t.offset.all (fun offset => offset.natAbs < 86400) then some (.timestamp t)
    else none
  | none => none

end DoxPages.Yaml.Moment
