import CallCompiler.Number.Binary64

/-!
Binary numbers in decimal. A number is written with the fewest digits that read back as the same number,
and with the nearest such digits.
-/
namespace CallCompiler.Number

def leadingPower (num den : Nat) : Int :=
  if den ≤ num then (digitCount (num / den) : Int) - 1
  else -(digitCount ((den + num - 1) / num - 1) : Int)

/-- The decimal with a last digit at `power` that reads back as `x` and is nearest to it. -/
def nearestAt? (x : Binary64) (num den : Nat) (power : Int) : Option Nat :=
  let (n, d) := shift 10 num den power
  let low := n / d
  let isLow := Binary64.ofDecimal false low power = x
  let isHigh := Binary64.ofDecimal false (low + 1) power = x
  if isLow ∧ isHigh then some (roundDiv n d)
  else if isLow then some low
  else if isHigh then some (low + 1)
  else none

/-- The shortest digits of a positive number and the power of ten of the last of them. Seventeen digits
always suffice. -/
def shortest (mantissa : Nat) (exponent : Int) : Nat × Int :=
  let x := Binary64.finite false mantissa exponent
  let (num, den) := Binary64.ratio mantissa exponent
  let lead := leadingPower num den
  let powers := (List.range 17).map fun (n : Nat) => lead - n
  (powers.findSome? fun power => (nearestAt? x num den power).map (·, power)).getD (0, 0)

/-- How a decimal is laid out: the range of the first digit's power in which no exponent is written, and
the least number of digits of an exponent. -/
structure Layout where
  lowest : Int
  highest : Int
  exponentWidth : Nat

def Layout.write (layout : Layout) (digits : List Char) (power : Int) : List Char :=
  let zeros (n : Int) : List Char := List.replicate n.toNat '0'
  let n : Int := digits.length
  if power < layout.lowest ∨ layout.highest < power then
    let fraction := if digits.length ≤ 1 then [] else '.' :: digits.drop 1
    let exponent := Nat.toDigits 10 power.natAbs
    digits.take 1 ++ fraction ++ ['e', if power < 0 then '-' else '+'] ++
      zeros (layout.exponentWidth - exponent.length) ++ exponent
  else if power < 0 then '0' :: '.' :: zeros (-power - 1) ++ digits
  else if power + 1 < n then digits.take (power + 1).toNat ++ '.' :: digits.drop (power + 1).toNat
  else digits ++ zeros (power + 1 - n) ++ ['.', '0']

def Binary64.write (layout : Layout) : Binary64 → List Char
  | .nan => "nan".toList
  | .infinite negative => (if negative then "-inf" else "inf").toList
  | .finite negative mantissa exponent =>
    let sign := if negative then ['-'] else []
    if mantissa = 0 then sign ++ layout.write ['0'] 0
    else
      let (digits, last) := shortest mantissa exponent
      let text := Nat.toDigits 10 digits
      let power := last + text.length - 1
      let kept := (text.reverse.dropWhile (· == '0')).reverse
      sign ++ layout.write kept power

end CallCompiler.Number
