import DoxPages.Yaml.Numeral
import DoxPages.Yaml.Timestamp

/-!
# Scalars of a configuration from YAML texts

-/

namespace DoxPages.Yaml

/-- The type of a plain scalar without a tag. -/
def Tag.ofPlain (text : String) : Tag :=
  let cs := text.toList
  if trueWords.contains text || falseWords.contains text then bool
  else if isFloat cs then float
  else if isInt cs then int
  else if text = "<<" then merge
  else if nullWords.contains text then null
  else if Moment.isMoment cs then timestamp
  else if text = "=" then default
  else if text = "!" || text = "&" || text = "*" then other
  else string

/-- The value of a letter among the sixty-four that write bytes. -/
def sextet? (c : Char) : Option Nat :=
  if 'A' ≤ c ∧ c ≤ 'Z' then some (c.toNat - 'A'.toNat)
  else if 'a' ≤ c ∧ c ≤ 'z' then some (c.toNat - 'a'.toNat + 26)
  else if '0' ≤ c ∧ c ≤ '9' then some (c.toNat - '0'.toNat + 52)
  else if c = '+' then some 62
  else if c = '/' then some 63
  else none

/-- The letters up to the padding; padding in front of the third letter of four is ignored, and
so is all that is no letter. The count is that of the letters read of the present four. -/
def sextets : (count pads : Nat) → List Char → List Nat × Bool
  | count, _, [] => ([], count = 0)
  | count, pads, c :: cs =>
    if c = '=' then
      if count ≥ 2 ∧ count + pads + 1 ≥ 4 then ([], true)
      else sextets count (if count ≥ 2 then pads + 1 else pads) cs
    else match sextet? c with
      | none => sextets count pads cs
      | some n =>
        let (more, padded) := sextets ((count + 1) % 4) 0 cs
        (n :: more, padded)

/-- Bytes from sextets: four make three, and a remainder gives the bytes it fills. -/
def bytesOf : List Nat → List UInt8
  | a :: b :: c :: d :: rest =>
    let n := ((a * 64 + b) * 64 + c) * 64 + d
    [n / 65536, n / 256, n].map UInt8.ofNat ++ bytesOf rest
  | [a, b, c] => [(a * 64 + b) / 16, ((a * 64 + b) * 64 + c) / 4].map UInt8.ofNat
  | [a, b] => [UInt8.ofNat ((a * 64 + b) / 16)]
  | _ => []

/-- The bytes that a text of letters and padding writes. -/
def bytes? (cs : List Char) : Option (List UInt8) :=
  let (ns, padded) := sextets 0 0 cs
  if padded && cs.all (·.toNat < 128) then some (bytesOf ns) else none

/-- The scalar that a text of a given type stands for. -/
def scalarValue? (tag : Tag) (text : String) : Option Scalar :=
  let cs := text.toList
  match tag with
  | .null => some .null
  | .bool =>
    let word := String.ofList (cs.map Char.toLower)
    if trueWords.contains word then some (.bool true)
    else if falseWords.contains word then some (.bool false)
    else none
  | .int => (intValue? cs).map .int
  | .float => (floatValue? cs).map .float
  | .binary => (bytes? cs).map .bytes
  | .timestamp => Moment.value? cs
  | .string => some (.string text)
  | _ => none

end DoxPages.Yaml
