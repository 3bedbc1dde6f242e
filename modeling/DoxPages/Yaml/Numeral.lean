import DoxPages.Number.Decimal
import DoxPages.Text.Numeral
import DoxPages.Yaml.Tag

/-!
# Numerals in YAML texts

Underscores are ignored, and a colon separates digits to the base of sixty. An
integer may be binary, octal or hexadecimal.
-/

namespace DoxPages.Yaml

def dropBars (cs : List Char) : List Char := cs.filter (· ≠ '_')

def unsignedInt? (cs : List Char) : Option Int :=
  match cs with
  | ['0'] => some 0
  | '0' :: 'b' :: ds => (Text.inBase? 2 ds).map Int.ofNat
  | '0' :: 'x' :: ds => (Text.inBase? 16 ds).map Int.ofNat
  | '0' :: ds => (Text.inBase? 8 ds).map Int.ofNat
  | ds => (Text.splitChar ':' ds).foldlM (fun n part => (Text.int? part).map (60 * n + ·)) 0

def isMinus (cs : List Char) : Bool := cs.head? == some '-'

def intValue? (cs : List Char) : Option Int :=
  let cs := dropBars cs
  (unsignedInt? (dropSign cs)).map fun n => if isMinus cs then -n else n

/-! ## Floating point numerals -/

/-- The exact value of a finite word without its sign. -/
def ratio? (x : Binary64) : Option (Nat × Nat) :=
  match x.magnitude with
  | .finite m e =>
    let power := Binary64.powTwo e.natAbs
    some (if e ≥ 0 then (m * power, 1) else (m, power))
  | _ => none

/-- Digits to the base of sixty, the lowest first. Every product and every sum is rounded. -/
def sixtieths : (weight : Nat) → (sum : Binary64) → List Binary64 → Option Binary64
  | _, sum, [] => some sum
  | weight, sum, d :: ds => do
    let (n, m) ← ratio? d
    let (n, m) ← ratio? (.ofRatio false (n * weight) m)
    let (p, q) ← ratio? sum
    sixtieths (60 * weight) (.ofRatio false (n * q + p * m) (m * q)) ds

def negate (negative : Bool) (x : Binary64) : Binary64 :=
  match x.magnitude with
  | .finite .. => .withSign negative (x.bits.toNat % Binary64.powTwo 63)
  | .infinite => .infinity negative
  | .nan => .nan

def floatValue? (cs : List Char) : Option Binary64 :=
  let cs := (dropBars cs).map Char.toLower
  let unsigned := Text.strip (dropSign cs)
  let x? :=
    if unsigned = ".inf".toList then some (.infinity false)
    else if unsigned = ".nan".toList then some .nan
    else match Text.splitChar ':' unsigned with
      | [ds] => Binary64.ofNumeral? false ds
      | parts => (parts.mapM (Binary64.ofNumeral? false)).bind fun ds =>
        sixtieths 1 (.withSign false 0) ds.reverse
  x?.map (negate (isMinus cs))

end DoxPages.Yaml
