/-!
Numbers in binary floating point, as sign, mantissa and power of two. A decimal is rounded to the nearest of
them; of two that are equally near, the one with the even mantissa is taken.
-/
namespace CallCompiler.Number

inductive Binary64
  | nan
  | infinite (negative : Bool)
  | finite (negative : Bool) (mantissa : Nat) (exponent : Int)
  deriving DecidableEq, Repr

/-- The whole number nearest to a quotient, the even one of two. -/
def roundDiv (num den : Nat) : Nat :=
  if 2 * (num % den) < den ∨ (2 * (num % den) = den ∧ num / den % 2 = 0) then num / den
  else num / den + 1

def shift (base : Nat) (num den : Nat) (exponent : Int) : Nat × Nat :=
  match exponent with
  | .ofNat k => (num, den * Nat.pow base k)
  | .negSucc k => (num * Nat.pow base (k + 1), den)

def digitCount (n : Nat) : Nat := (Nat.toDigits 10 n).length

namespace Binary64

def leastExponent : Int := -1074

def greatestExponent : Int := 971

/-- Mantissas have at most 53 bits; those of 53 bits start here. -/
def leastFull : Nat := Nat.pow 2 52

def zero (negative : Bool) : Binary64 := .finite negative 0 leastExponent

def ofRatio (negative : Bool) (num den : Nat) : Binary64 :=
  if num = 0 then zero negative
  else
    let guess : Int := (Nat.log2 num : Int) - Nat.log2 den - 52
    let (n, d) := shift 2 num den guess
    let exponent := if n < d * leastFull then guess - 1 else guess
    let exponent := if exponent < leastExponent then leastExponent else exponent
    let (n, d) := shift 2 num den exponent
    let mantissa := roundDiv n d
    let (mantissa, exponent) :=
      if mantissa = 2 * leastFull then (leastFull, exponent + 1) else (mantissa, exponent)
    if exponent > greatestExponent then .infinite negative
    else .finite negative mantissa exponent

/-- The number nearest to a decimal. Decimals far out of range are settled by their size alone. -/
def ofDecimal (negative : Bool) (digits : Nat) (exponent : Int) : Binary64 :=
  let size := (digitCount digits : Int) + exponent
  if digits = 0 ∨ size < -330 then zero negative
  else if size > 310 then .infinite negative
  else
    let (num, den) := shift 10 digits 1 (-exponent)
    ofRatio negative num den

def ratio (mantissa : Nat) (exponent : Int) : Nat × Nat := shift 2 mantissa 1 (-exponent)

def toInt? : Binary64 → Option Int
  | .finite negative mantissa exponent =>
    let (num, den) := ratio mantissa exponent
    if num % den = 0 then
      let n : Int := (num / den : Nat)
      some (if negative then -n else n)
    else none
  | _ => none

end Binary64

end CallCompiler.Number
