import CallCompiler.Text.Hex

/-!
The strings of a TOML document: in single or double quotes, on one line or on many. Each function reads
from just after the opening quotes and gives the text and what follows the closing ones.
-/
namespace CallCompiler.Toml

def isControl (c : Char) : Bool := (c.toNat < 0x20 && c != '\t') || c.toNat == 0x7f

def isIllegal (lines : Bool) (c : Char) : Bool := isControl c && !(lines && c == '\n')

/-- Where a string in double quotes stands: in plain text, after a backslash, in the digits of a code point,
or in the blanks of a folded line, before or after its line break. -/
inductive Place
  | plain
  | escape
  | code (left : Nat) (value : Nat)
  | folding
  | folded
  deriving DecidableEq, Repr

def escaped? : Char → Option Char
  | 'b' => some '\x08'
  | 't' => some '\t'
  | 'n' => some '\n'
  | 'f' => some '\x0c'
  | 'r' => some '\r'
  | '"' => some '"'
  | '\\' => some '\\'
  | _ => none

def isScalar (n : Nat) : Bool := n < 0xd800 || (0xe000 ≤ n && n < 0x110000)

/-- Up to two more closing quotes belong to the text of a string on many lines. -/
def extraQuotes (mark : Char) (cs : List Char) : List Char × List Char :=
  let extra := (cs.take 2).takeWhile (· == mark)
  (extra, cs.drop extra.length)

def prepend (c : Char) (r : Option (List Char × List Char)) : Option (List Char × List Char) :=
  r.map fun (text, rest) => (c :: text, rest)

def basic (lines : Bool) : Place → List Char → Option (List Char × List Char)
  | _, [] => none
  | .escape, c :: cs =>
    if c = 'u' then basic lines (.code 4 0) cs
    else if c = 'U' then basic lines (.code 8 0) cs
    else if lines ∧ (c = ' ' ∨ c = '\t') then basic lines .folding cs
    else if lines ∧ c = '\n' then basic lines .folded cs
    else
      match escaped? c with
      | some e => prepend e (basic lines .plain cs)
      | none => none
  | .code left value, c :: cs =>
    match Text.hexValue? c with
    | none => none
    | some d =>
      let value := value * 16 + d
      if left ≤ 1 then
        if isScalar value then prepend (Char.ofNat value) (basic lines .plain cs) else none
      else basic lines (.code (left - 1) value) cs
  | .folding, c :: cs =>
    if c = ' ' ∨ c = '\t' then basic lines .folding cs
    else if c = '\n' then basic lines .folded cs
    else none
  | place, c :: cs =>
    if place = .folded ∧ (c = ' ' ∨ c = '\t' ∨ c = '\n') then basic lines .folded cs
    else if c = '"' then
      if lines then
        match cs with
        | '"' :: '"' :: rest => some (extraQuotes '"' rest)
        | _ => prepend '"' (basic lines .plain cs)
      else some ([], cs)
    else if c = '\\' then basic lines .escape cs
    else if isIllegal lines c then none
    else prepend c (basic lines .plain cs)

def literal (lines : Bool) : List Char → Option (List Char × List Char)
  | [] => none
  | c :: cs =>
    if c = '\x27' then
      if lines then
        match cs with
        | '\x27' :: '\x27' :: rest => some (extraQuotes '\x27' rest)
        | _ => prepend c (literal lines cs)
      else some ([], cs)
    else if isIllegal lines c then none
    else prepend c (literal lines cs)

/-- A line break right after the opening quotes does not belong to the text. -/
def dropFirstBreak : List Char → List Char
  | '\n' :: cs => cs
  | cs => cs

def string? : List Char → Option (List Char × List Char)
  | '"' :: '"' :: '"' :: cs => basic true .plain (dropFirstBreak cs)
  | '"' :: cs => basic false .plain cs
  | '\x27' :: '\x27' :: '\x27' :: cs => literal true (dropFirstBreak cs)
  | '\x27' :: cs => literal false cs
  | _ => none

def lineString? : List Char → Option (List Char × List Char)
  | '"' :: cs => basic false .plain cs
  | '\x27' :: cs => literal false cs
  | _ => none

end CallCompiler.Toml
