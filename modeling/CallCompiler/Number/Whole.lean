import CallCompiler.Text.Blank
import CallCompiler.Text.Digit

/-!
Whole numbers as text. The plain form of a number is a minus sign, if it is negative, and its digits
without zeros in front. A text is read by taking off what may stand around and inside of the plain form:
white space, a sign, zeros in front, a point with zeros, underscores.
-/
namespace CallCompiler.Number.Whole

inductive Fault
  | unclear
  | oversized
  deriving DecidableEq, Repr

/-- A plain form has at most this many characters, its sign included. -/
def plainLimit : Nat := 4300

def splitMinus : List Char → List Char × List Char
  | '-' :: rest => (['-'], rest)
  | cs => ([], cs)

def plain? (cs : List Char) : Option Int :=
  let (sign, digits) := splitMinus cs
  let isPlain := match digits with
    | [] => false
    | [c] => Text.isDigit c
    | c :: rest => c != '0' && Text.isDigit c && rest.all Text.isDigit
  if isPlain && cs.length ≤ plainLimit then
    let n : Int := Text.decimal digits
    some (if sign.isEmpty then n else -n)
  else none

def startsOversized (cs : List Char) : Bool :=
  let (sign, rest) := splitMinus cs
  let digits := rest.takeWhile Text.isDigit
  digits.head? != some '0' && plainLimit < sign.length + digits.length

/-- What follows zeros and underscores, the last of which is `last`. It starts with a digit or a minus
sign; `last` belongs to it if a point or nothing comes next. -/
def afterZeros? (last : Char) : List Char → Option (List Char)
  | [] => some [last]
  | c :: rest =>
    if c = '0' ∨ c = '_' then afterZeros? c rest
    else if c = '.' then some (last :: c :: rest)
    else if c = '-' ∨ Text.isDigit c then some (c :: rest)
    else none

def dropZeros? : List Char → Option (List Char)
  | [] => none
  | c :: rest =>
    if c = '0' then afterZeros? c rest else if Text.isDigit c then some (c :: rest) else none

def dropPoint? (cs : List Char) : Option (List Char) :=
  match cs.dropWhile (· != '.') with
  | [] => some cs
  | _ :: zeros =>
    if !zeros.isEmpty && zeros.all (· == '0') then some (cs.takeWhile (· != '.')) else none

def dropUnderscores? : List Char → Option (List Char)
  | [] => none
  | [c] => if c = '_' then none else some [c]
  | c :: '_' :: rest => if c = '_' then none else (c :: ·) <$> dropUnderscores? rest
  | c :: rest => if c = '_' then none else (c :: ·) <$> dropUnderscores? rest

/-- The plain form of a text, as far as it has one: zeros in front are taken off after the sign, and a
minus sign may also follow them. -/
def tidy? (cs : List Char) : Option (List Char) :=
  let (sign, body) :=
    match Text.trim Text.isWhiteSpace cs with
    | '-' :: rest => (['-'], rest)
    | '+' :: rest => ([], rest)
    | rest => ([], rest)
  (sign ++ ·) <$> (((dropZeros? body).bind dropPoint?).bind dropUnderscores?)

/-- Reads a whole number. Only a text that starts with a plain form is ever too long; a number that is too
long after tidying is not understood. -/
def read (cs : List Char) : Except Fault Int :=
  if startsOversized cs then .error .oversized
  else
    match (tidy? cs).bind plain? with
    | some n => .ok n
    | none => .error .unclear

end CallCompiler.Number.Whole
