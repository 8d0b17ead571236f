import CallCompiler.Settings.Value
import CallCompiler.Text.Digit
import CallCompiler.Text.Hex

/-!
The numbers, dates and times of a TOML document. Each function reads the longest text of its kind at the
start of the characters and gives what is left; none says that there is no such text.
-/
namespace CallCompiler.Toml

open Settings Calendar Number

/-- Why a document cannot be read: it breaks the rules of the format, or a decimal number in it has more
digits than are read. -/
inductive Fault
  | malformed
  | tooManyDigits (count : Nat)
  deriving DecidableEq, Repr

def digitLimit : Nat := 4300

def oversizedMessage (count : Nat) : String :=
  "Exceeds the limit (" ++ toString digitLimit ++ " digits) for integer string conversion: value has " ++
    toString count ++ " digits; use sys.set_int_max_str_digits() to increase the limit"

/-- Digits of a class with single underscores between them, the underscores left out. -/
def moreDigits (p : Char → Bool) : List Char → List Char × List Char
  | '_' :: c :: cs =>
    if p c then
      let (digits, rest) := moreDigits p cs
      (c :: digits, rest)
    else ([], '_' :: c :: cs)
  | c :: cs =>
    if p c then
      let (digits, rest) := moreDigits p cs
      (c :: digits, rest)
    else ([], c :: cs)
  | [] => ([], [])

def digits? (p : Char → Bool) : List Char → Option (List Char × List Char)
  | c :: cs =>
    if p c then
      let (digits, rest) := moreDigits p cs
      some (c :: digits, rest)
    else none
  | [] => none

def isHexDigit (c : Char) : Bool := (Text.hexValue? c).isSome

def isOctalDigit (c : Char) : Bool := '0' ≤ c && c ≤ '7'

def isBinaryDigit (c : Char) : Bool := c == '0' || c == '1'

def inBase (base : Nat) (digits : List Char) : Nat :=
  digits.foldl (fun n c => base * n + (Text.hexValue? c).getD 0) 0

def based? : List Char → Option (Value × List Char)
  | '0' :: 'x' :: cs => (digits? isHexDigit cs).map fun (d, r) => (.int (inBase 16 d), r)
  | '0' :: 'b' :: cs => (digits? isBinaryDigit cs).map fun (d, r) => (.int (inBase 2 d), r)
  | '0' :: 'o' :: cs => (digits? isOctalDigit cs).map fun (d, r) => (.int (inBase 8 d), r)
  | _ => none

def sign : List Char → Bool × List Char
  | '-' :: cs => (true, cs)
  | '+' :: cs => (false, cs)
  | cs => (false, cs)

/-- The digits before the point: a zero alone, or digits that do not start with one. -/
def wholePart? : List Char → Option (List Char × List Char)
  | '0' :: cs => some (['0'], cs)
  | cs => digits? Text.isDigit cs

def fractionPart : List Char → List Char × List Char
  | '.' :: cs => (digits? Text.isDigit cs).getD ([], '.' :: cs)
  | cs => ([], cs)

def exponentPart (cs : List Char) : Option (Bool × List Char × List Char) :=
  match cs with
  | c :: r =>
    if c = 'e' ∨ c = 'E' then
      let (negative, r) := sign r
      (digits? Text.isDigit r).map fun (digits, rest) => (negative, digits, rest)
    else none
  | [] => none

def decimal? (cs : List Char) : Option (Except Fault Value × List Char) :=
  let (negative, body) := sign cs
  match wholePart? body with
  | none => none
  | some (whole, rest) =>
    let (fraction, rest) := fractionPart rest
    let places : Int := fraction.length
    let digits := Text.decimal (whole ++ fraction)
    match exponentPart rest with
    | some (down, power, rest) =>
      let n : Int := Text.decimal power
      let exponent := (if down then -n else n) - places
      some (.ok (.float (.ofDecimal negative digits exponent)), rest)
    | none =>
      if !fraction.isEmpty then some (.ok (.float (.ofDecimal negative digits (-places))), rest)
      else if whole.length > digitLimit then some (.error (.tooManyDigits whole.length), rest)
      else
        let n : Int := digits
        some (.ok (.int (if negative then -n else n)), rest)

def special? (cs : List Char) : Option (Value × List Char) :=
  let (negative, body) := sign cs
  match body with
  | 'i' :: 'n' :: 'f' :: rest => some (.float (.infinite negative), rest)
  | 'n' :: 'a' :: 'n' :: rest => some (.float .nan, rest)
  | _ => none

def fixed? (width lo hi : Nat) (cs : List Char) : Option (Nat × List Char) :=
  let digits := cs.take width
  let n := Text.decimal digits
  if digits.length = width ∧ digits.all Text.isDigit ∧ lo ≤ n ∧ n ≤ hi then some (n, cs.drop width)
  else none

def skip? (c : Char) : List Char → Option (List Char)
  | d :: cs => if c = d then some cs else none
  | [] => none

/-- The digits after the point of a second, the first six of which count. -/
def microseconds : List Char → Nat × List Char
  | '.' :: cs =>
    let digits := cs.takeWhile Text.isDigit
    if digits.isEmpty then (0, '.' :: cs)
    else
      let six := digits.take 6
      (Text.decimal (six ++ List.replicate (6 - six.length) '0'), cs.dropWhile Text.isDigit)
  | cs => (0, cs)

def time? (cs : List Char) : Option (Time × List Char) := do
  let (hour, cs) ← fixed? 2 0 23 cs
  let (minute, cs) ← fixed? 2 0 59 (← skip? ':' cs)
  let (second, cs) ← fixed? 2 0 59 (← skip? ':' cs)
  let (micro, cs) := microseconds cs
  return (⟨hour, minute, second, micro⟩, cs)

def offset? : List Char → Option (Int × List Char)
  | c :: cs =>
    if c = 'Z' ∨ c = 'z' then some (0, cs)
    else if c = '+' ∨ c = '-' then do
      let (hours, cs) ← fixed? 2 0 23 cs
      let (minutes, cs) ← fixed? 2 0 59 (← skip? ':' cs)
      let n : Int := (hours * 60 + minutes : Nat)
      return (if c = '-' then -n else n, cs)
    else none
  | [] => none

def date? (cs : List Char) : Option (Date × List Char) := do
  let (year, cs) ← fixed? 4 0 9999 cs
  let (month, cs) ← fixed? 2 1 12 (← skip? '-' cs)
  let (day, cs) ← fixed? 2 1 31 (← skip? '-' cs)
  return (⟨year, month, day⟩, cs)

def timeOfDate? : List Char → Option (Time × List Char)
  | c :: cs => if c = 'T' ∨ c = 't' ∨ c = ' ' then time? cs else none
  | [] => none

def instant? (cs : List Char) : Option (Except Fault Value × List Char) :=
  match date? cs with
  | none => none
  | some (date, rest) =>
    let checked (v : Value) : Except Fault Value := if date.isValid then .ok v else .error .malformed
    match timeOfDate? rest with
    | none => some (checked (.date date), rest)
    | some (time, rest) =>
      match offset? rest with
      | none => some (checked (.instant date time none), rest)
      | some (offset, rest) => some (checked (.instant date time (some offset)), rest)

def scalar? (cs : List Char) : Option (Except Fault Value × List Char) :=
  let plain : Option (Value × List Char) → Option (Except Fault Value × List Char) :=
    Option.map fun (v, rest) => (.ok v, rest)
  match cs with
  | 't' :: 'r' :: 'u' :: 'e' :: rest => some (.ok (.bool true), rest)
  | 'f' :: 'a' :: 'l' :: 's' :: 'e' :: rest => some (.ok (.bool false), rest)
  | cs =>
    instant? cs <|> plain ((time? cs).map fun (t, rest) => (.time t, rest)) <|>
      plain (based? cs) <|> decimal? cs <|> plain (special? cs)

end CallCompiler.Toml
