/-!
# Floating point words of 64 bits

A word is decoded into an exact value `mantissa * 2 ^ exponent` and a ratio of
natural numbers is rounded to the nearest word, ties to the even one. Both work on
natural numbers alone.
-/

namespace DoxPages

structure Binary64 where
  bits : UInt64
  deriving DecidableEq, Repr, Inhabited

namespace Binary64

def powTwo (n : Nat) : Nat := Nat.pow 2 n

def powTen (n : Nat) : Nat := Nat.pow 10 n

/-- What a word stands for; a finite value without its sign is `mantissa * 2 ^ exponent`. -/
inductive Magnitude where
  | nan
  | infinite
  | finite (mantissa : Nat) (exponent : Int)
  deriving DecidableEq, Repr

def isNegative (x : Binary64) : Bool := x.bits.toNat / powTwo 63 == 1

def magnitude (x : Binary64) : Magnitude :=
  let fraction : Nat := x.bits.toNat % powTwo 52
  let biased : Nat := x.bits.toNat / powTwo 52 % powTwo 11
  if biased = 2047 then if fraction = 0 then .infinite else .nan
  else if biased = 0 then .finite fraction (-1074)
  else .finite (powTwo 52 + fraction) ((biased : Int) - 1075)

def withSign (negative : Bool) (magnitudeBits : Nat) : Binary64 :=
  ⟨UInt64.ofNat (magnitudeBits + if negative then powTwo 63 else 0)⟩

def infinity (negative : Bool) : Binary64 := withSign negative (2047 * powTwo 52)

def nan : Binary64 := withSign false (2047 * powTwo 52 + powTwo 51)

/-- The quotient rounded to the nearest natural number, ties to the even one. -/
def roundDiv (num den : Nat) : Nat :=
  let q := num / den
  let r := num % den
  if 2 * r < den then q
  else if 2 * r > den then q + 1
  else q + q % 2

/-- The greatest `e` with `2 ^ e ≤ num / den`. -/
def floorLog2 (num den : Nat) : Int :=
  let e : Int := num.log2 - den.log2
  let le := if e ≥ 0 then den * powTwo e.toNat ≤ num else den ≤ num * powTwo (-e).toNat
  if le then e else e - 1

/-- The word nearest to a ratio. -/
def ofRatio (negative : Bool) (num den : Nat) : Binary64 :=
  if num = 0 ∨ den = 0 then withSign negative 0
  else
    let exponent := max (floorLog2 num den - 52) (-1074)
    let mantissa :=
      if exponent ≥ 0 then roundDiv num (den * powTwo exponent.toNat)
      else roundDiv (num * powTwo (-exponent).toNat) den
    if mantissa < powTwo 52 then withSign negative mantissa
    else
      let magnitudeBits := (exponent + 1075).toNat * powTwo 52 + (mantissa - powTwo 52)
      if magnitudeBits ≥ 2047 * powTwo 52 then infinity negative
      else withSign negative magnitudeBits

/-- The word nearest to `mantissa * 10 ^ exponent`; exponents far out are zero or infinite. -/
def ofDecimal (negative : Bool) (mantissa : Nat) (exponent : Int) : Binary64 :=
  let digits := (Nat.toDigits 10 mantissa).length
  if mantissa = 0 ∨ exponent + digits < -400 then withSign negative 0
  else if exponent + digits > 400 then infinity negative
  else if exponent ≥ 0 then ofRatio negative (mantissa * powTen exponent.toNat) 1
  else ofRatio negative mantissa (powTen (-exponent).toNat)

/-- The integer a word stands for, if it is one. -/
def int? (x : Binary64) : Option Int :=
  match x.magnitude with
  | .finite mantissa exponent =>
    let divisor := powTwo (-exponent).toNat
    let n? :=
      if exponent ≥ 0 then some (mantissa * powTwo exponent.toNat)
      else if mantissa % divisor = 0 then some (mantissa / divisor)
      else none
    n?.map fun n => if x.isNegative then -(n : Int) else n
  | _ => none

end Binary64

end DoxPages
