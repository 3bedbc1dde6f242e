import DoxPages.Number.Binary64

/-!
# The shortest decimal that reads back

A finite word is written with the fewest digits that round to it, and of those
nearest to its value. For each number of digits the two neighbours of the value
on that decimal grid are tested against the interval of values that round to the
word.
-/

namespace DoxPages.Binary64

/-- A value and the interval around it that rounds to the same word, over one denominator. -/
structure Window where
  low : Nat
  value : Nat
  high : Nat
  den : Nat
  closed : Bool
  deriving Repr

def window (mantissa : Nat) (exponent : Int) : Window :=
  let unit := powTwo exponent.toNat
  let below := if mantissa = powTwo 52 ∧ exponent > -1074 then 1 else 2
  { low := (4 * mantissa - below) * unit
    value := 4 * mantissa * unit
    high := (4 * mantissa + 2) * unit
    den := 4 * powTwo (-exponent).toNat
    closed := mantissa % 2 = 0 }

/-- Whether `n * 10 ^ scale` lies in the window. -/
def Window.holds (w : Window) (n : Nat) (scale : Int) : Bool :=
  let x := n * powTen scale.toNat * w.den
  let low := w.low * powTen (-scale).toNat
  let high := w.high * powTen (-scale).toNat
  if w.closed then low ≤ x && x ≤ high else low < x && x < high

/-- The number of digits before the point, negative for zeros behind it. -/
def Window.pointPlace (w : Window) : Int :=
  if w.den ≤ w.value then (Nat.toDigits 10 (w.value / w.den)).length
  else -((List.range 400).findIdx fun j => w.den ≤ w.value * powTen (j + 1) : Nat)

/-- The decimal with `count` digits that reads back, the nearer one if there are two. -/
def Window.decimal? (w : Window) (count : Nat) : Option (Nat × Int) :=
  let scale := w.pointPlace - count
  let num := w.value * powTen (-scale).toNat
  let den := w.den * powTen scale.toNat
  let below := num / den
  match w.holds below scale, w.holds (below + 1) scale with
  | true, true => some (roundDiv num den, scale)
  | true, false => some (below, scale)
  | false, true => some (below + 1, scale)
  | false, false => none

/-- The shortest decimal `n * 10 ^ scale` of a positive value. -/
def shortest (mantissa : Nat) (exponent : Int) : Nat × Int :=
  let w := window mantissa exponent
  ((List.range 17).findSome? fun i => w.decimal? (i + 1)).getD (0, 0)

/-- How decimals are laid out: where the point may stand, and the form of an exponent. -/
structure Layout where
  /-- Positional notation from this power of ten on. -/
  least : Int
  /-- Positional notation below this power of ten. -/
  most : Int
  /-- Least number of digits of an exponent. -/
  exponentDigits : Nat

/-- Positional from 0.0001 to below 10 ^ 16, with at least one place; else `1.5e-07`. -/
def plainLayout : Layout := ⟨-4, 16, 2⟩

def padLeft (width : Nat) (cs : List Char) : List Char :=
  List.replicate (width - cs.length) '0' ++ cs

/-- Digits with a decimal point; `point` digits stand before it. -/
def layoutDigits (l : Layout) (digits : List Char) (point : Int) : List Char :=
  let power := point - 1
  if l.least ≤ power ∧ power < l.most then
    if point ≤ 0 then ['0', '.'] ++ List.replicate (-point).toNat '0' ++ digits
    else
      let whole := digits.take point.toNat
      let rest := digits.drop point.toNat
      whole ++ List.replicate (point.toNat - whole.length) '0' ++ ['.']
        ++ if rest = [] then ['0'] else rest
  else
    let mantissa := match digits with
      | [d] => [d]
      | d :: ds => d :: '.' :: ds
      | [] => []
    mantissa ++ ['e', if power < 0 then '-' else '+']
      ++ padLeft l.exponentDigits (Nat.toDigits 10 power.natAbs)

def dropTrailingZeros (cs : List Char) : List Char := (cs.reverse.dropWhile (· == '0')).reverse

/-- The text of a word. -/
def text (x : Binary64) : String :=
  let sign := if x.isNegative then "-" else ""
  match x.magnitude with
  | .nan => "nan"
  | .infinite => sign ++ "inf"
  | .finite 0 _ => sign ++ "0.0"
  | .finite mantissa exponent =>
    let (n, scale) := shortest mantissa exponent
    let digits := Nat.toDigits 10 n
    sign ++ String.ofList (layoutDigits plainLayout (dropTrailingZeros digits)
      (digits.length + scale))

end DoxPages.Binary64
